import WoodFiredTasks.Mcp.RemoteSseParser

set_option autoImplicit false

/-! # The two parsers and the chunks

Neither parser of the event stream depends on how the stream is cut into chunks. What the remote
server's parser writes is said by the blocks of the router's parser: the name and the data of
every ended block in which a line sets one of them. -/

namespace WoodFiredTasks.Mcp

open Router.Sse (SSEParser Field Line PendingEvent createSSEParser completeLines eventOfBlock
  isBlank readField splitField stripCr)

/-! ## The blocks of a stream -/

/-- The blocks of lines that a blank line has ended. -/
def endedBlocks (text : List Char) : List (List Line) :=
  ((completeLines text).splitOnP isBlank).dropLast

def isEventOrData : Field → Bool
  | .event _ => true
  | .data _ => true
  | _ => false

/-- An `event` or a `data` line. -/
def isEventOrDataLine (rawLine : Line) : Bool := (readField rawLine).any isEventOrData

/-- The name and the data of a block in which a line sets one of them. -/
def remoteEventOfBlock (block : List Line) : Option RemoteSSEEvent :=
  if block.any isEventOrDataLine then
    (eventOfBlock block).map fun event => { event := event.event, data := event.data }
  else none

/-! ## The remote parser by blocks -/

namespace PendingBlock

/-- What is pending after these fields. -/
def ofFields (fields : List Field) : PendingBlock where
  event := (PendingEvent.ofFields fields).event
  dataLines := (PendingEvent.ofFields fields).dataLines
  hasField := fields.any isEventOrData

/-- What is pending after the lines of a block. -/
def ofLines (block : List Line) : PendingBlock := ofFields (block.filterMap readField)

theorem ofLines_nil : ofLines [] = {} := rfl

theorem hasField_ofLines (block : List Line) :
    (ofLines block).hasField = block.any isEventOrDataLine := by
  induction block with
  | nil => rfl
  | cons rawLine rest ih =>
    have htail : (rest.filterMap readField).any isEventOrData = rest.any isEventOrDataLine := ih
    show ((rawLine :: rest).filterMap readField).any isEventOrData = _
    cases hfield : readField rawLine with
    | none => simp [hfield, htail, isEventOrDataLine, -List.any_filterMap]
    | some field => simp [hfield, htail, isEventOrDataLine, -List.any_filterMap]

theorem finalize_ofLines (block : List Line) :
    (ofLines block).finalize = ({}, (remoteEventOfBlock block).toList) := by
  rw [finalize, remoteEventOfBlock, hasField_ofLines]
  by_cases hany : block.any isEventOrDataLine = true
  · have hfields : (block.filterMap readField).isEmpty = false := by
      by_contra hempty
      rw [Bool.not_eq_false, List.isEmpty_iff] at hempty
      rw [← hasField_ofLines, ofLines, hempty] at hany
      contradiction
    rw [if_pos hany, if_pos hany, eventOfBlock, hfields]
    rfl
  · rw [if_neg hany, if_neg hany]
    rfl

/-- The parser reads the same fields as the router's, and of these two. -/
theorem processLine_eq (pending : PendingBlock) {rawLine : Line} (h : isBlank rawLine = false) :
    pending.processLine rawLine =
      (match readField rawLine with
        | some (.event value) => { pending with event := some value, hasField := true }
        | some (.data value) =>
          { pending with dataLines := pending.dataLines ++ [value], hasField := true }
        | _ => pending, []) := by
  unfold processLine readField
  by_cases hcomment : (stripCr rawLine).head? = some ':'
  · simp [h, hcomment]
  · rcases hsplit : splitField (stripCr rawLine) with ⟨name, value⟩
    by_cases hevent : name = "event".toList
    · simp [h, hcomment, hsplit, hevent]
    · by_cases hdata : name = "data".toList
      · simp [h, hcomment, hsplit, hdata]
      · simp only [h, hcomment, hsplit, hevent, hdata, if_false, Bool.false_eq_true]
        split_ifs <;> rfl

/-- The parser's machine is the one that splits the lines into blocks. -/
theorem processLine_ofLines (block : List Line) (rawLine : Line) :
    (ofLines block).processLine rawLine =
      (ofLines (Transducer.split isBlank block rawLine).1,
        (Transducer.split isBlank block rawLine).2.flatMap fun b =>
          (remoteEventOfBlock b).toList) := by
  by_cases hblank : isBlank rawLine = true
  · simp [processLine, Transducer.split, hblank, finalize_ofLines, ofLines_nil]
  · rw [processLine_eq _ (by simpa using hblank)]
    cases hfield : readField rawLine with
    | none => simp [Transducer.split, hblank, hfield, ofLines]
    | some field =>
      cases field <;>
        simp [Transducer.split, hblank, hfield, ofLines, ofFields, PendingEvent.ofFields,
          isEventOrData]

end PendingBlock

/-- From its beginning, the parser has written the events of the ended blocks. -/
theorem RemoteSSEParser.run_step (text : List Char) :
    (Transducer.run step ([], {}) text).2 = (endedBlocks text).filterMap remoteEventOfBlock := by
  have hlines := Transducer.run_of_view PendingBlock.ofLines
    (fun b => (remoteEventOfBlock b).toList) PendingBlock.processLine_ofLines []
    (completeLines text)
  simp only [step, Transducer.run_comp, endedBlocks, List.splitOn_eq_splitOnP,
    Transducer.dropLast_splitOnP, completeLines] at hlines ⊢
  rw [← PendingBlock.ofLines_nil, hlines, List.filterMap_eq_flatMap_toList]

/-! ## Chunks -/

/-- Fed chunk by chunk, the router's parser is where the whole text brings it. -/
theorem run_feed (chunks : List (List Char)) :
    let fed := Transducer.run SSEParser.feed createSSEParser chunks
    ((fed.1.lineBuffer, fed.1.pending), fed.2) =
      Transducer.run SSEParser.step ([], {}) chunks.flatten :=
  Transducer.run_pieces (fun parser : SSEParser => (parser.lineBuffer, parser.pending))
    SSEParser.feed_eq createSSEParser chunks

theorem run_remote_feed (chunks : List (List Char)) :
    let fed := Transducer.run RemoteSSEParser.feed createRemoteSSEParser chunks
    ((fed.1.lineBuffer, fed.1.pending), fed.2) =
      Transducer.run RemoteSSEParser.step ([], {}) chunks.flatten :=
  Transducer.run_pieces (fun parser : RemoteSSEParser => (parser.lineBuffer, parser.pending))
    RemoteSSEParser.feed_eq createRemoteSSEParser chunks

end WoodFiredTasks.Mcp
