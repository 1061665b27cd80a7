import WoodFiredTasks.Lib.Transducer

set_option autoImplicit false

/-! # The parser of the event stream

The router reads the text of the stream in pieces. The parser keeps the unfinished last line and
the event whose lines it is reading; a blank line completes the event. What has been completed
after a text is said without the parser, by its blocks of lines. -/

namespace WoodFiredTasks.Router.Sse

/-- `SSEEvent`, as the parser reads it: `data` is still text. -/
structure SSEEvent where
  id : Option String := none
  event : Option String := none
  data : String
  retry : Option Nat := none
  deriving DecidableEq

/-- A line of the stream, without its `\n`. -/
abbrev Line := List Char

/-! ## Lines -/

/-- Strips a trailing `\r`. -/
def stripCr (rawLine : Line) : Line :=
  if rawLine.getLast? = some '\r' then rawLine.dropLast else rawLine

def isBlank (rawLine : Line) : Bool := stripCr rawLine = []

/-- The fields that are read. -/
inductive Field where
  | event (value : String)
  | data (value : String)
  | id (value : String)
  | retry (ms : Nat)

/-- The name before the first colon and the value after it, less one leading blank; a line without
    a colon is a name. -/
def splitField (line : Line) : Line × Line :=
  let name := line.takeWhile (· ≠ ':')
  match line.dropWhile (· ≠ ':') with
  | [] => (line, [])
  | _ :: ' ' :: value => (name, value)
  | _ :: value => (name, value)

def digits? (value : Line) : Bool := value ≠ [] && value.all fun c => '0' ≤ c && c ≤ '9'

/-- What a line sets: nothing if it is a comment, if it names no field that is read, or if the
    field does not take the value. -/
def readField (rawLine : Line) : Option Field :=
  let line := stripCr rawLine
  if line.head? = some ':' then none
  else
    let (name, value) := splitField line
    if name = "event".toList then some (.event (String.ofList value))
    else if name = "data".toList then some (.data (String.ofList value))
    else if name = "id".toList then
      if '\x00' ∈ value then none else some (.id (String.ofList value))
    else if name = "retry".toList then
      if digits? value then some (.retry (value.foldl (fun n c => 10 * n + (c.toNat - 48)) 0))
      else none
    else none

/-! ## The parser -/

/-- `PendingEvent`; the default is `NEW_BLOCK()`. -/
structure PendingEvent where
  id : Option String := none
  event : Option String := none
  dataLines : List String := []
  retry : Option Nat := none
  hasField : Bool := false
  deriving DecidableEq

namespace PendingEvent

def set (pending : PendingEvent) : Field → PendingEvent
  | .event value => { pending with event := some value, hasField := true }
  | .data value => { pending with dataLines := pending.dataLines ++ [value], hasField := true }
  | .id value => { pending with id := some value, hasField := true }
  | .retry ms => { pending with retry := some ms, hasField := true }

def finalizeIfReady (pending : PendingEvent) : PendingEvent × List SSEEvent :=
  if pending.hasField then
    ({}, [{ id := pending.id, event := pending.event,
            data := "\n".intercalate pending.dataLines, retry := pending.retry }])
  else ({}, [])

def processLine (pending : PendingEvent) (rawLine : Line) : PendingEvent × List SSEEvent :=
  if isBlank rawLine then pending.finalizeIfReady
  else
    match readField rawLine with
    | some field => (pending.set field, [])
    | none => (pending, [])

end PendingEvent

/-- `SSEParser`; the line that did not end yet has no `\n`. -/
structure SSEParser where
  lineBuffer : Line := []
  pending : PendingEvent := {}
  unfinished : ∀ c ∈ lineBuffer, (c == '\n') = false := by simp

/-- `createSSEParser` -/
def createSSEParser : SSEParser := {}

namespace SSEParser

theorem unfinished_getLast? (text : List Char) :
    ∀ c ∈ ((text.splitOn '\n').getLast?.getD []), (c == '\n') = false := by
  rw [List.splitOn_eq_splitOnP, Transducer.getLast?_splitOnP]
  exact Transducer.run_split_fst (by simp) text

def feed (parser : SSEParser) (chunk : List Char) : SSEParser × List SSEEvent :=
  let combined := parser.lineBuffer ++ chunk
  let parts := combined.splitOn '\n'
  let out := Transducer.run PendingEvent.processLine parser.pending parts.dropLast
  (⟨parts.getLast?.getD [], out.1, unfinished_getLast? combined⟩, out.2)

def flush (parser : SSEParser) : SSEParser × List SSEEvent :=
  let last :=
    if parser.lineBuffer = [] then (parser.pending, [])
    else parser.pending.processLine parser.lineBuffer
  let out := last.1.finalizeIfReady
  ({ createSSEParser with pending := out.1 }, last.2 ++ out.2)

end SSEParser

/-! ## What is complete after a text -/

/-- The event of a block of lines; none if no line sets anything. -/
def eventOfBlock (block : List Line) : Option SSEEvent :=
  let fields := block.filterMap readField
  if fields.isEmpty then none
  else some
    { id := (fields.filterMap fun | .id value => some value | _ => none).getLast?
      event := (fields.filterMap fun | .event value => some value | _ => none).getLast?
      data := "\n".intercalate (fields.filterMap fun | .data value => some value | _ => none)
      retry := (fields.filterMap fun | .retry ms => some ms | _ => none).getLast? }

/-- The lines that have ended. -/
def completeLines (text : List Char) : List Line := (text.splitOn '\n').dropLast

/-- The events whose blank line is in the text. -/
def completeEvents (text : List Char) : List SSEEvent :=
  ((completeLines text).splitOnP isBlank).dropLast.filterMap eventOfBlock

/-- The lines after the last blank one, with the one that did not end. -/
def openBlock (text : List Char) : List Line :=
  ((completeLines text).splitOnP isBlank).getLast?.getD [] ++ [(text.splitOn '\n').getLast?.getD []]

/-- The text does not end within an event. -/
def betweenEvents (text : List Char) : Bool :=
  (openBlock text).all fun rawLine => (readField rawLine).isNone

theorem eventOfBlock_eq_none {block : List Line} :
    eventOfBlock block = none ↔ (block.all fun rawLine => (readField rawLine).isNone) = true := by
  simp [eventOfBlock]

/-! ## The parser by blocks -/

/-- What is pending after these fields. -/
def PendingEvent.ofFields (fields : List Field) : PendingEvent where
  id := (fields.filterMap fun | .id value => some value | _ => none).getLast?
  event := (fields.filterMap fun | .event value => some value | _ => none).getLast?
  dataLines := fields.filterMap fun | .data value => some value | _ => none
  retry := (fields.filterMap fun | .retry ms => some ms | _ => none).getLast?
  hasField := !fields.isEmpty

/-- What is pending after the lines of a block. -/
def pendingOf (block : List Line) : PendingEvent := .ofFields (block.filterMap readField)

namespace PendingEvent

theorem set_ofFields (fields : List Field) (field : Field) :
    (ofFields fields).set field = ofFields (fields ++ [field]) := by
  cases field <;> simp [ofFields, set]

theorem finalizeIfReady_pendingOf (block : List Line) :
    (pendingOf block).finalizeIfReady = ({}, (eventOfBlock block).toList) := by
  unfold finalizeIfReady eventOfBlock pendingOf
  by_cases hfields : (block.filterMap readField).isEmpty
  · simp [ofFields, hfields]
  · simp [ofFields, hfields]

theorem pendingOf_nil : pendingOf [] = {} := rfl

/-- The parser's machine is the one that splits the lines into blocks. -/
theorem processLine_pendingOf (block : List Line) (rawLine : Line) :
    (pendingOf block).processLine rawLine =
      (pendingOf (Transducer.split isBlank block rawLine).1,
        (Transducer.split isBlank block rawLine).2.flatMap fun b => (eventOfBlock b).toList) := by
  unfold processLine Transducer.split
  by_cases hblank : isBlank rawLine = true
  · simp [hblank, finalizeIfReady_pendingOf, pendingOf_nil]
  · cases hfield : readField rawLine with
    | none => simp [hblank, hfield, pendingOf]
    | some field => simp [hblank, hfield, pendingOf, set_ofFields]

end PendingEvent

namespace SSEParser

/-- One character. -/
def step : Line × PendingEvent → Char → (Line × PendingEvent) × List SSEEvent :=
  Transducer.comp (Transducer.split (· == '\n')) PendingEvent.processLine

/-- Feeding a piece of the text is feeding its characters one by one. -/
theorem feed_eq (parser : SSEParser) (chunk : List Char) :
    (((parser.feed chunk).1.lineBuffer, (parser.feed chunk).1.pending), (parser.feed chunk).2) =
      Transducer.run step (parser.lineBuffer, parser.pending) chunk := by
  have hsplit := Transducer.run_split_of_free [] parser.unfinished
  simp only [feed, step, Transducer.run_comp, List.splitOn_eq_splitOnP,
    Transducer.dropLast_splitOnP, Transducer.getLast?_splitOnP, Transducer.run_append, hsplit]
  simp

/-- From its beginning, the parser has written the complete events and holds the open block. -/
theorem run_step (text : List Char) :
    Transducer.run step ([], {}) text =
      (((text.splitOn '\n').getLast?.getD [],
        pendingOf (((completeLines text).splitOnP isBlank).getLast?.getD [])),
        completeEvents text) := by
  have hlines := Transducer.run_of_view pendingOf (fun b => (eventOfBlock b).toList)
    PendingEvent.processLine_pendingOf [] (completeLines text)
  simp only [step, Transducer.run_comp, completeEvents, List.splitOn_eq_splitOnP,
    Transducer.getLast?_splitOnP, Transducer.dropLast_splitOnP, completeLines] at hlines ⊢
  rw [← PendingEvent.pendingOf_nil, hlines]
  simp [List.filterMap_eq_flatMap_toList]

/-- What `flush` makes of the open block. -/
theorem flush_of_run {parser : SSEParser} {text : List Char}
    (h : (parser.lineBuffer, parser.pending) = (Transducer.run step ([], {}) text).1) :
    parser.flush.2 = (eventOfBlock (openBlock text)).toList := by
  rw [run_step, Prod.mk.injEq] at h
  obtain ⟨hbuffer, hpending⟩ := h
  generalize hblock : ((completeLines text).splitOnP isBlank).getLast?.getD [] = block at hpending
  rw [openBlock, hblock, ← hbuffer, flush, hpending]
  by_cases hempty : parser.lineBuffer = []
  · have hfields : (block ++ [[]]).filterMap readField = block.filterMap readField := by
      simp [readField, stripCr, splitField]
    simp [hempty, PendingEvent.finalizeIfReady_pendingOf, eventOfBlock, hfields]
  · simp only [hempty, if_false, PendingEvent.processLine_pendingOf, Transducer.split]
    by_cases hblank : isBlank parser.lineBuffer = true
    · have hnone : readField parser.lineBuffer = none := by
        have hline : stripCr parser.lineBuffer = [] := by simpa [isBlank] using hblank
        simp [readField, hline, splitField]
      have hfields : (block ++ [parser.lineBuffer]).filterMap readField =
          block.filterMap readField := by
        simp [hnone]
      simp [hblank, PendingEvent.finalizeIfReady_pendingOf, eventOfBlock, hfields]
    · simp [hblank, PendingEvent.finalizeIfReady_pendingOf]

end SSEParser

end WoodFiredTasks.Router.Sse
