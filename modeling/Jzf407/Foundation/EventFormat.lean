import Jzf407.Foundation.Scan

/-!
# The format of event streams

An event stream is a text of blocks, each ended by a blank line. A block carries the payload of an
event in its `data` lines, or it is a comment, which begins with a colon (`EventBlock`).

* `EventBlock.text` is what a server writes for a block of one line.
* `eventData` reads a stream as an event source does: it collects the data lines of a block and
  gives them out at its blank line (`dispatch`), and it passes over every other line. Data lines
  that the stream ends within are never given out.

A block of one line is read back, whatever follows it, and a comment is passed over
(`eventData_text_append`). The one condition is that the payload has no line break of its own
(`EventBlock.OneLine`), which would end the line and let the rest of the payload be read as
another field. A stream is then read block after block.
-/

namespace Foundation

/-- A block of one line. -/
inductive EventBlock
  | event (data : Str)
  | comment (text : Str)
  deriving DecidableEq, Repr

namespace EventBlock

/-- The line of a block. -/
def line : EventBlock → Str
  | .event data => "data: ".toList ++ data
  | .comment text => ": ".toList ++ text

@[simp]
theorem line_event (data : Str) : (event data).line = "data: ".toList ++ data := rfl

/-- The text of a block. -/
def text (b : EventBlock) : Str := b.line ++ ['\n', '\n']

/-- What an event source gives out for a block. -/
def payload : EventBlock → Option Str
  | .event data => some data
  | .comment _ => none

/-- Nothing in the block ends its line. -/
def OneLine (b : EventBlock) : Prop := '\n' ∉ b.line ∧ '\r' ∉ b.line

end EventBlock

/-- **The payloads in some lines**, after data lines whose block has not ended yet. -/
def dispatch : List Str → List Str → List Str
  | _, [] => []
  | data, line :: rest =>
      if line.isEmpty then
        (if data.isEmpty then [] else [['\n'].intercalate data]) ++ dispatch [] rest
      else
        match stripPrefix "data:".toList line with
        | some value => dispatch (data ++ [(stripPrefix [' '] value).getD value]) rest
        | none => dispatch data rest

/-- **The payloads of the events of a stream.** -/
def eventData (s : Str) : List Str := dispatch [] (lines s)

/-- A line and the blank line after it. -/
theorem lines_blankLine {line : Str} (hnewline : '\n' ∉ line) (hcr : '\r' ∉ line) (rest : Str) :
    lines (line ++ '\n' :: '\n' :: rest) = line :: [] :: lines rest := by
  rw [lines_append_newline, ← List.nil_append ('\n' :: rest), lines_append_newline,
    List.splitOn_eq_singleton hnewline, List.splitOn_nil]
  simp only [List.map_singleton, stripCr_of_notMem hcr, stripCr_of_notMem List.not_mem_nil]
  rfl

/-- **A block of one line is read back**, and a comment is not. -/
theorem eventData_text_append {b : EventBlock} (h : b.OneLine) (rest : Str) :
    eventData (b.text ++ rest) = b.payload.toList ++ eventData rest := by
  have htext : b.text ++ rest = b.line ++ '\n' :: '\n' :: rest := by
    rw [EventBlock.text, List.append_assoc]
    rfl
  have hfull : b.line.isEmpty = false := by cases b <;> rfl
  rw [eventData, htext, lines_blankLine h.1 h.2]
  cases b with
  | event data =>
    have hvalue : stripPrefix "data:".toList (EventBlock.event data).line = some (' ' :: data) :=
      stripPrefix_append "data:".toList (' ' :: data)
    have hspace : stripPrefix [' '] (' ' :: data) = some data := stripPrefix_append [' '] data
    rw [dispatch, hfull, if_neg Bool.false_ne_true, hvalue]
    dsimp only
    rw [hspace, dispatch, if_pos List.isEmpty_nil]
    simp [EventBlock.payload, eventData]
  | comment text =>
    have hvalue : stripPrefix "data:".toList (EventBlock.comment text).line = none := rfl
    rw [dispatch, hfull, if_neg Bool.false_ne_true, hvalue]
    dsimp only
    rw [dispatch, if_pos List.isEmpty_nil]
    rfl

end Foundation
