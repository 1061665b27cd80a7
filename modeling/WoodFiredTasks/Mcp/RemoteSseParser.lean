import WoodFiredTasks.Lib.Transducer
import WoodFiredTasks.Router.SseParser

set_option autoImplicit false

/-! # The event stream parser of the remote MCP server

`createRemoteSSEParser` (`src/mcp/remote/sse-parser.ts`): the same lines as the router's parser, of
which only `event:` and `data:` are read. In front of it stands the decoder; together they are a
machine over the bytes of the body, so it does not matter how the body is cut into chunks
(`feed_decode`). -/

namespace WoodFiredTasks.Mcp

open Router.Sse (Line stripCr splitField isBlank)

structure RemoteSSEEvent where
  event : Option String := none
  data : String
  deriving DecidableEq

/-- `PendingBlock`; the default is `newBlock()`. -/
structure PendingBlock where
  event : Option String := none
  dataLines : List String := []
  hasField : Bool := false
  deriving DecidableEq

namespace PendingBlock

def finalize (pending : PendingBlock) : PendingBlock × List RemoteSSEEvent :=
  if pending.hasField then
    ({}, [{ event := pending.event, data := "\n".intercalate pending.dataLines }])
  else ({}, [])

def processLine (pending : PendingBlock) (rawLine : Line) : PendingBlock × List RemoteSSEEvent :=
  if isBlank rawLine then pending.finalize
  else if (stripCr rawLine).head? = some ':' then (pending, [])
  else
    let (field, value) := splitField (stripCr rawLine)
    if field = "event".toList then
      ({ pending with event := some (String.ofList value), hasField := true }, [])
    else if field = "data".toList then
      ({ pending with
          dataLines := pending.dataLines ++ [String.ofList value], hasField := true }, [])
    else (pending, [])

end PendingBlock

/-- The variables of a parser; the line that did not end yet has no `\n`. -/
structure RemoteSSEParser where
  lineBuffer : Line
  pending : PendingBlock
  unfinished : ∀ c ∈ lineBuffer, (c == '\n') = false

def createRemoteSSEParser : RemoteSSEParser :=
  ⟨[], {}, fun _ hc => absurd hc List.not_mem_nil⟩

namespace RemoteSSEParser

def feed (parser : RemoteSSEParser) (chunk : List Char) : RemoteSSEParser × List RemoteSSEEvent :=
  let combined := parser.lineBuffer ++ chunk
  let parts := combined.splitOn '\n'
  let out := Transducer.run PendingBlock.processLine parser.pending parts.dropLast
  (⟨parts.getLast?.getD [], out.1, Router.Sse.SSEParser.unfinished_getLast? combined⟩, out.2)

/-- One character. -/
def step : Line × PendingBlock → Char → (Line × PendingBlock) × List RemoteSSEEvent :=
  Transducer.comp (Transducer.split (· == '\n')) PendingBlock.processLine

/-- Feeding a piece of the text is feeding its characters one by one. -/
theorem feed_eq (parser : RemoteSSEParser) (chunk : List Char) :
    (((parser.feed chunk).1.lineBuffer, (parser.feed chunk).1.pending), (parser.feed chunk).2) =
      Transducer.run step (parser.lineBuffer, parser.pending) chunk := by
  have hsplit := Transducer.run_split_of_free [] parser.unfinished
  simp only [feed, step, Transducer.run_comp, List.splitOn_eq_splitOnP,
    Transducer.dropLast_splitOnP, Transducer.getLast?_splitOnP, Transducer.run_append, hsplit]
  simp

end RemoteSSEParser

/-! ## Bytes -/

/-- What the decoder and the parser keep between two bytes. -/
abbrev ReaderState := (Utf8State × Bool) × (Line × PendingBlock)

/-- One byte of the body. -/
def readByte : ReaderState → UInt8 → ReaderState × List RemoteSSEEvent :=
  Transducer.comp TextDecoder.step RemoteSSEParser.step

/-- The decoder and the parser at the beginning of a body. -/
def readStart : ReaderState := (({}, false), ([], {}))

/-- The state of a decoder and a parser. -/
def readerState (decoder : TextDecoder) (parser : RemoteSSEParser) : ReaderState :=
  ((decoder.utf8, decoder.bomSeen), (parser.lineBuffer, parser.pending))

/-- Decoding a chunk and feeding its text is reading its bytes one by one. -/
theorem feed_decode (decoder : TextDecoder) (parser : RemoteSSEParser) (chunk : List UInt8) :
    (readerState (decoder.decode chunk).1 (parser.feed (decoder.decode chunk).2).1,
      (parser.feed (decoder.decode chunk).2).2) =
      Transducer.run readByte (readerState decoder parser) chunk := by
  have hfeed := RemoteSSEParser.feed_eq parser (decoder.decode chunk).2
  have hstate := congrArg Prod.fst hfeed
  have hevents := congrArg Prod.snd hfeed
  rw [readByte, readerState, Transducer.run_comp]
  simp only [Prod.mk.injEq]
  exact ⟨⟨rfl, hstate⟩, hevents⟩

/-! ## Frames -/

/-- Bytes that a server sends in one piece, and the events that they complete, which they do with
    the last byte. They can be read at the beginning of a body and after any other frame. -/
structure Frame where
  bytes : List UInt8
  events : List RemoteSSEEvent
  reads_as : ∀ bomSeen, Transducer.run readByte (({}, bomSeen), ([], {})) bytes =
    ((({}, true), ([], {})), events)
  silent : ∀ bomSeen, (Transducer.run readByte (({}, bomSeen), ([], {})) bytes.dropLast).2 = []

/-- How many of the frames lie within the first bytes of the body. -/
def framesWithin : List Frame → Nat → Nat
  | [], _ => 0
  | frame :: rest, received =>
    if frame.bytes.length ≤ received then framesWithin rest (received - frame.bytes.length) + 1
    else 0

/-- What is read of the first bytes are the events of the frames that lie within them. -/
theorem run_take (frames : List Frame) (received : Nat) (bomSeen : Bool) :
    (Transducer.run readByte (({}, bomSeen), ([], {}))
      ((frames.flatMap Frame.bytes).take received)).2 =
      (frames.take (framesWithin frames received)).flatMap Frame.events := by
  induction frames generalizing received bomSeen with
  | nil => simp
  | cons frame rest ih =>
    rw [List.flatMap_cons, framesWithin]
    by_cases hlength : frame.bytes.length ≤ received
    · rw [if_pos hlength, List.take_append, List.take_of_length_le hlength,
        Transducer.run_append, frame.reads_as, ih, List.take_succ_cons, List.flatMap_cons]
    · have hpart : frame.bytes.take received <+: frame.bytes.dropLast := by
        rw [List.dropLast_eq_take]
        exact List.take_prefix_take_left (by omega)
      have hread : (Transducer.run readByte (({}, bomSeen), ([], {}))
          (frame.bytes.take received)).2 <+: _ := Transducer.run_mono _ hpart
      rw [frame.silent, List.prefix_nil] at hread
      rw [if_neg hlength, List.take_append_of_le_length (by omega), hread]
      rfl

/-! ## The frame of an event -/

/-- A text of one line in ASCII, as `JSON.stringify` writes it where no other character comes in. -/
def PlainText (text : List Char) : Prop := ∀ c ∈ text, c.toNat < 128 ∧ c ≠ '\n' ∧ c ≠ '\r'

theorem plainText_iff (text : List Char) :
    (text.all fun c => decide (c.toNat < 128) && c != '\n' && c != '\r') = true ↔
      PlainText text := by
  simp [PlainText, and_assoc]

instance (text : List Char) : Decidable (PlainText text) := decidable_of_iff _ (plainText_iff text)

theorem PlainText.append {xs ys : List Char} (hx : PlainText xs) (hy : PlainText ys) :
    PlainText (xs ++ ys) :=
  List.forall_mem_append.2 ⟨hx, hy⟩

def asciiBytes (text : List Char) : List UInt8 := text.map fun c => UInt8.ofNat c.toNat

theorem decode_ascii (text : List Char) (h : ∀ c ∈ text, c.toNat < 128) (bomSeen : Bool) :
    Transducer.run TextDecoder.step ({}, bomSeen) (asciiBytes text) =
      (({}, bomSeen || !text.isEmpty), text) := by
  induction text generalizing bomSeen with
  | nil => simp [asciiBytes]
  | cons c rest ih =>
    have hc : c.toNat < 128 := h c List.mem_cons_self
    have hbyte : (UInt8.ofNat c.toNat).toNat = c.toNat := by
      simp only [UInt8.toNat_ofNat']
      omega
    have hbom : c ≠ '\ufeff' := by
      intro heq
      rw [heq] at hc
      contradiction
    have hstep : TextDecoder.step ({}, bomSeen) (UInt8.ofNat c.toNat) = (({}, true), [c]) := by
      have hlead : Utf8State.step {} (UInt8.ofNat c.toNat) = ({}, [c]) := by
        simp only [Utf8State.step, if_pos, Utf8State.lead, hbyte]
        rw [if_pos (by omega), Char.ofNat_toNat]
      simp [TextDecoder.step, Transducer.comp, hlead, stripBom, hbom, Transducer.run_singleton]
    have hrest := ih (fun d hd => h d (List.mem_cons_of_mem c hd)) true
    rw [asciiBytes, List.map_cons, Transducer.run_cons, hstep]
    rw [asciiBytes] at hrest
    simp [hrest]

/-- A whole line, read at the beginning of a line. -/
theorem run_line (pending : PendingBlock) {line : Line} (rest : List Char)
    (h : ∀ c ∈ line, c ≠ '\n') :
    Transducer.run RemoteSSEParser.step ([], pending) (line ++ '\n' :: rest) =
      ((Transducer.run RemoteSSEParser.step ([], (pending.processLine line).1) rest).1,
        (pending.processLine line).2 ++
          (Transducer.run RemoteSSEParser.step ([], (pending.processLine line).1) rest).2) := by
  have hline : Transducer.run RemoteSSEParser.step ([], pending) line = ((line, pending), []) := by
    have hfree : ∀ c ∈ line, (c == '\n') = false := by simpa using h
    rw [RemoteSSEParser.step, Transducer.run_comp, Transducer.run_split_of_free [] hfree]
    rfl
  have hend : RemoteSSEParser.step (line, pending) '\n' =
      (([], (pending.processLine line).1), (pending.processLine line).2) := by
    simp [RemoteSSEParser.step, Transducer.comp, Transducer.split, Transducer.run_singleton]
  rw [Transducer.run_append, hline, Transducer.run_cons, hend]
  simp

theorem stripCr_plain {line : Line} (h : PlainText line) : stripCr line = line := by
  rw [stripCr, if_neg]
  intro hlast
  exact (h _ (List.mem_of_getLast? hlast)).2.2 rfl

/-- A line that sets a field. -/
def fieldLine (field value : List Char) : List Char := field ++ ':' :: ' ' :: value

theorem plain_fieldLine {field value : List Char} (hfield : PlainText field)
    (hvalue : PlainText value) : PlainText (fieldLine field value) := by
  have hcolon : PlainText [':', ' '] := by decide
  simpa [fieldLine] using hfield.append (hcolon.append hvalue)

theorem plain_event : PlainText "event".toList := by decide

theorem plain_data : PlainText "data".toList := by decide

theorem processLine_event (pending : PendingBlock) {name : List Char} (h : PlainText name) :
    pending.processLine (fieldLine "event".toList name) =
      ({ pending with event := some (String.ofList name), hasField := true }, []) := by
  rw [PendingBlock.processLine, isBlank, stripCr_plain (plain_fieldLine plain_event h)]
  simp [fieldLine, splitField]

theorem processLine_data (pending : PendingBlock) {data : List Char} (h : PlainText data) :
    pending.processLine (fieldLine "data".toList data) =
      ({ pending with dataLines := pending.dataLines ++ [String.ofList data], hasField := true },
        []) := by
  rw [PendingBlock.processLine, isBlank, stripCr_plain (plain_fieldLine plain_data h)]
  simp [fieldLine, splitField]

/-- The text of an event, as the server sends it, up to the blank line that completes it. -/
def eventText (name data : List Char) : List Char :=
  fieldLine "event".toList name ++ '\n' :: (fieldLine "data".toList data ++ ['\n'])

theorem eventText_ascii {name data : List Char} (hname : PlainText name) (hdata : PlainText data) :
    ∀ c ∈ eventText name data, c.toNat < 128 := by
  intro c hc
  rcases List.mem_append.1 hc with hevent | hrest
  · exact (plain_fieldLine plain_event hname c hevent).1
  · rcases List.mem_cons.1 hrest with rfl | hrest
    · decide
    · rcases List.mem_append.1 hrest with hline | hend
      · exact (plain_fieldLine plain_data hdata c hline).1
      · rw [List.mem_singleton.1 hend]
        decide

theorem run_eventText {name data : List Char} (hname : PlainText name) (hdata : PlainText data)
    (rest : List Char) :
    Transducer.run RemoteSSEParser.step ([], {}) (eventText name data ++ rest) =
      Transducer.run RemoteSSEParser.step
        ([], { event := some (String.ofList name), dataLines := [String.ofList data],
               hasField := true }) rest := by
  have hevent := fun c hc => (plain_fieldLine plain_event hname c hc).2.1
  have hline := fun c hc => (plain_fieldLine plain_data hdata c hc).2.1
  rw [eventText, List.append_assoc, List.cons_append, List.append_assoc, run_line _ _ hevent,
    processLine_event _ hname, List.singleton_append, run_line _ _ hline,
    processLine_data _ hdata]
  simp

theorem run_readByte_ascii (text : List Char) (h : ∀ c ∈ text, c.toNat < 128) (bomSeen : Bool) :
    Transducer.run readByte (({}, bomSeen), ([], {})) (asciiBytes text) =
      ((({}, bomSeen || !text.isEmpty), (Transducer.run RemoteSSEParser.step ([], {}) text).1),
        (Transducer.run RemoteSSEParser.step ([], {}) text).2) := by
  rw [readByte, Transducer.run_comp, decode_ascii text h]

/-- The frame of an event with one line of data. -/
def Frame.ofEvent (name data : List Char) (hname : PlainText name) (hdata : PlainText data) :
    Frame where
  bytes := asciiBytes (eventText name data ++ ['\n'])
  events := [{ event := some (String.ofList name), data := String.ofList data }]
  reads_as bomSeen := by
    have hascii : ∀ c ∈ eventText name data ++ ['\n'], c.toNat < 128 :=
      List.forall_mem_append.2 ⟨eventText_ascii hname hdata, by simp⟩
    rw [run_readByte_ascii _ hascii, run_eventText hname hdata, Transducer.run_singleton]
    simp [RemoteSSEParser.step, Transducer.comp, Transducer.split, Transducer.run_singleton,
      PendingBlock.processLine, isBlank, stripCr, PendingBlock.finalize]
  silent bomSeen := by
    have hbytes : (asciiBytes (eventText name data ++ ['\n'])).dropLast =
        asciiBytes (eventText name data) := by
      simp [asciiBytes]
    have hrun := run_eventText hname hdata []
    rw [List.append_nil, Transducer.run_nil] at hrun
    rw [hbytes, run_readByte_ascii _ (eventText_ascii hname hdata), hrun]

end WoodFiredTasks.Mcp
