import Mathlib.Data.List.Basic
import Firstpass.Lib.LineFeed

/-!
# Server-sent events

A frame has data and may have an event name; each field is a line, and a blank
line ends the frame. A reader takes the stream line by line. Frames whose fields
hold no line feed are read back as they were written.
-/

namespace EventStream

structure Frame where
  event : Option (List Char)
  data : List Char
  deriving DecidableEq

def eventField : List Char := ['e', 'v', 'e', 'n', 't', ':', ' ']

def dataField : List Char := ['d', 'a', 't', 'a', ':', ' ']

def line (field value : List Char) : List Char := field ++ value ++ ['\n']

def Frame.text (f : Frame) : List Char :=
  (f.event.map (line eventField)).getD [] ++ line dataField f.data ++ ['\n']

-- ---------------------------------------------------------------------------
-- The reader
-- ---------------------------------------------------------------------------

/-- The fields since the last blank line, and the frames before it. -/
structure Reader where
  event : Option (List Char)
  data : Option (List Char)
  frames : List Frame

def Reader.fresh (frames : List Frame) : Reader := ⟨none, none, frames⟩

/-- A frame without data is no frame; more lines of data are joined. -/
def Reader.line (r : Reader) (text : List Char) : Reader :=
  if text = [] then
    match r.data with
    | some data => .fresh (r.frames ++ [⟨r.event, data⟩])
    | none => .fresh r.frames
  else
    match text.dropPrefix? eventField with
    | some event => { r with event := some event }
    | none =>
      match text.dropPrefix? dataField with
      | some data => { r with data := some ((r.data.map (· ++ ['\n'])).getD [] ++ data) }
      | none => r

def read (text : List Char) : List Frame :=
  ((LineFeed.lines '\n' text).foldl Reader.line (.fresh [])).frames

-- ---------------------------------------------------------------------------
-- Reading what was written
-- ---------------------------------------------------------------------------

/-- No field of the frame holds a line feed. -/
structure Frame.OneLine (f : Frame) : Prop where
  event : ∀ event ∈ f.event, '\n' ∉ event
  data : '\n' ∉ f.data

theorem lines_line {text : List Char} (h : '\n' ∉ text) (rest : List Char) :
    LineFeed.lines '\n' (text ++ '\n' :: rest) = text :: LineFeed.lines '\n' rest := by
  rw [LineFeed.lines, List.splitOn_append_cons_self_of_not_mem h,
    List.dropLast_cons_of_ne_nil (List.splitOn_ne_nil _ rest), LineFeed.lines]

theorem dropPrefix?_self (field value : List Char) :
    (field ++ value).dropPrefix? field = some value :=
  List.dropPrefix?_append_of_beq value (beq_self_eq_true field)

theorem line_event (event : List Char) (frames : List Frame) :
    (Reader.fresh frames).line (eventField ++ event) = ⟨some event, none, frames⟩ := by
  have hne : eventField ++ event ≠ [] := by simp [eventField]
  rw [Reader.line, if_neg hne, dropPrefix?_self]
  rfl

theorem line_data (event : Option (List Char)) (data : List Char) (frames : List Frame) :
    Reader.line ⟨event, none, frames⟩ (dataField ++ data) = ⟨event, some data, frames⟩ := by
  have hne : dataField ++ data ≠ [] := by simp [dataField]
  have hnone : (dataField ++ data).dropPrefix? eventField = none := by
    simp [dataField, eventField, List.dropPrefix?]
  rw [Reader.line, if_neg hne, hnone, dropPrefix?_self]
  rfl

theorem line_blank (event : Option (List Char)) (data : List Char) (frames : List Frame) :
    Reader.line ⟨event, some data, frames⟩ [] = .fresh (frames ++ [⟨event, data⟩]) := rfl

theorem read_frame {f : Frame} (h : f.OneLine) (frames : List Frame) (rest : List Char) :
    (LineFeed.lines '\n' (f.text ++ rest)).foldl Reader.line (.fresh frames) =
      (LineFeed.lines '\n' rest).foldl Reader.line (.fresh (frames ++ [f])) := by
  obtain ⟨event, data⟩ := f
  obtain ⟨hevent, hdata⟩ := h
  have hdataLine : '\n' ∉ dataField ++ data := by simpa [dataField] using hdata
  have hend : LineFeed.lines '\n' ('\n' :: rest) = [] :: LineFeed.lines '\n' rest :=
    lines_line List.not_mem_nil rest
  cases event with
  | none =>
    have htext : (Frame.mk none data).text ++ rest =
        (dataField ++ data) ++ '\n' :: '\n' :: rest := by
      simp [Frame.text, line]
    rw [htext, lines_line hdataLine, hend]
    simp only [List.foldl_cons]
    rw [Reader.fresh, line_data, line_blank]
  | some event =>
    have heventLine : '\n' ∉ eventField ++ event := by simpa [eventField] using hevent event rfl
    have htext : (Frame.mk (some event) data).text ++ rest =
        (eventField ++ event) ++ '\n' :: ((dataField ++ data) ++ '\n' :: '\n' :: rest) := by
      simp [Frame.text, line]
    rw [htext, lines_line heventLine, lines_line hdataLine, hend]
    simp only [List.foldl_cons]
    rw [line_event, line_data, line_blank]

/-- A comment line, and the blank line after it. -/
def comment (text : List Char) : List Char := ':' :: text ++ ['\n', '\n']

theorem line_comment (text : List Char) (frames : List Frame) :
    (Reader.fresh frames).line (':' :: text) = .fresh frames := by
  simp [Reader.line, List.dropPrefix?, eventField, dataField]

/-- Comments are passed over. -/
theorem read_comment {text : List Char} (h : '\n' ∉ text) (frames : List Frame)
    (rest : List Char) :
    (LineFeed.lines '\n' (comment text ++ rest)).foldl Reader.line (.fresh frames) =
      (LineFeed.lines '\n' rest).foldl Reader.line (.fresh frames) := by
  have hline : '\n' ∉ ':' :: text := by simpa using h
  have htext : comment text ++ rest = (':' :: text) ++ '\n' :: '\n' :: rest := by
    simp [comment]
  have hend : LineFeed.lines '\n' ('\n' :: rest) = [] :: LineFeed.lines '\n' rest :=
    lines_line List.not_mem_nil rest
  rw [htext, lines_line hline, hend, List.foldl_cons, List.foldl_cons, line_comment]
  rfl

theorem read_comments {text : List Char} (h : '\n' ∉ text) (n : Nat) (rest : List Char) :
    read ((List.replicate n (comment text)).flatten ++ rest) = read rest := by
  induction n with
  | zero => rfl
  | succ n ih =>
    rw [List.replicate_succ, List.flatten_cons, List.append_assoc, read, read_comment h, ← read, ih]

theorem read_frames {fs : List Frame} (h : ∀ f ∈ fs, f.OneLine) (frames : List Frame) :
    ((LineFeed.lines '\n' (fs.flatMap Frame.text)).foldl Reader.line (.fresh frames)).frames =
      frames ++ fs := by
  induction fs generalizing frames with
  | nil => simp [LineFeed.lines, Reader.fresh]
  | cons f fs ih =>
    obtain ⟨hf, hfs⟩ := List.forall_mem_cons.mp h
    rw [List.flatMap_cons, read_frame hf, ih hfs]
    simp

/-- Frames of one-line fields are read back from their text. -/
theorem read_text {fs : List Frame} (h : ∀ f ∈ fs, f.OneLine) : read (fs.flatMap Frame.text) = fs :=
  read_frames h []

end EventStream
