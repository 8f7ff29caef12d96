import Firstpass.Lib.Separator
import Firstpass.Proxy.Provider
import Firstpass.Proxy.ReceiptExport

/-!
# Wiring a shell and unwiring it

Onboarding appends one marked line to the rc file of the user's shell, and offboarding removes
the marked lines. A file is its bytes; what is not UTF-8 is not read as text at all.

Left out: reading and writing fail here on no file, and the steps that write no rc file have
no effect here.
-/

namespace Firstpass.Onboard

open ReceiptExport (lines stripReturn)

-- ---------------------------------------------------------------------------
-- The plan
-- ---------------------------------------------------------------------------

/-- The components of a path. -/
abbrev Path := List String

def rcMarker : String := "# added by `firstpass onboard`"

/-- What the plan reads of the environment. -/
structure Environment where
  shell : String
  proxyRunning : Bool
  alreadyRouted : Bool
  hasClaudeCli : Bool
  bind : String

/-- A config to be written, as it is rendered. -/
structure ConfigPlan where
  path : Path
  toml : String

inductive Step
  | writeConfig (path : Path) (toml : String)
  | startProxy (config : Option Path)
  | wireShell (rc : Path) (line : String)
  | suggestClaudeMcp
  | verify
  | alreadyDone (why : String)
  deriving DecidableEq

def shellWiring (shell : String) (home : Path) (bind : String) : Path × String :=
  let url := "http://" ++ bind
  match shell with
  | "fish" =>
    (home ++ [".config", "fish", "config.fish"],
      "set -gx ANTHROPIC_BASE_URL " ++ url ++ "  " ++ rcMarker)
  | "bash" => (home ++ [".bashrc"], "export ANTHROPIC_BASE_URL=" ++ url ++ "  " ++ rcMarker)
  | "zsh" => (home ++ [".zshrc"], "export ANTHROPIC_BASE_URL=" ++ url ++ "  " ++ rcMarker)
  | _ => (home ++ [".profile"], "export ANTHROPIC_BASE_URL=" ++ url ++ "  " ++ rcMarker)

def plan (env : Environment) (home : Path) (rcAlreadyWired : Bool) (config : Option ConfigPlan) :
    List Step :=
  (match config with
    | some c => [.writeConfig c.path c.toml]
    | none => []) ++
  (if env.proxyRunning then [.alreadyDone "proxy already answering /healthz"]
    else [.startProxy (config.map ConfigPlan.path)]) ++
  (if env.alreadyRouted || rcAlreadyWired then [.alreadyDone "ANTHROPIC_BASE_URL already wired"]
    else
      let (rc, line) := shellWiring env.shell home env.bind
      [.wireShell rc line]) ++
  (if env.hasClaudeCli then [.suggestClaudeMcp] else []) ++ [.verify]

theorem mem_plan_wireShell {env : Environment} {home : Path} {wired : Bool}
    {config : Option ConfigPlan} {rc : Path} {line : String} :
    Step.wireShell rc line ∈ plan env home wired config ↔
      env.alreadyRouted = false ∧ wired = false ∧
        shellWiring env.shell home env.bind = (rc, line) := by
  have hconfig : Step.wireShell rc line ∉
      (match config with
        | some c => [.writeConfig c.path c.toml]
        | none => [] : List Step) := by
    cases config <;> simp
  cases hrouted : env.alreadyRouted <;> cases wired <;> cases hrun : env.proxyRunning <;>
    cases hcli : env.hasClaudeCli <;>
    simp [plan, hconfig, hrouted, hrun, hcli, Prod.ext_iff, eq_comm]

/-- A wiring line is a head of its dialect, the address and the marker. -/
theorem shellWiring_line (shell : String) (home : Path) (bind : String) :
    ∃ head : String, '\n' ∉ head.toList ∧
      (shellWiring shell home bind).2 = head ++ bind ++ "  " ++ rcMarker := by
  unfold shellWiring
  split
  · exact ⟨"set -gx ANTHROPIC_BASE_URL http://", by simp, by simp [← String.append_assoc]⟩
  all_goals
    exact ⟨"export ANTHROPIC_BASE_URL=http://", by simp, by simp [← String.append_assoc]⟩

-- ---------------------------------------------------------------------------
-- The rc file
-- ---------------------------------------------------------------------------

abbrev Files := Path → Option ByteArray

/-- `std::fs::read_to_string` -/
def readToString (files : Files) (path : Path) : Option String :=
  (files path).bind String.fromUTF8?

/-- The execution of a wiring step: the line goes after whatever the file has. -/
def wireShell (files : Files) (rc : Path) (line : String) : Files :=
  Function.update files rc (some ((files rc).getD .empty ++ (line ++ "\n").toByteArray))

def rcWired (files : Files) (rc : Path) : Bool :=
  (readToString files rc).any (contains · rcMarker)

/-- Whether anything was removed, and the files after it. -/
def offboardRc (files : Files) (rc : Path) : Bool × Files :=
  match readToString files rc with
  | none => (false, files)
  | some content =>
    if contains content rcMarker then
      let kept := (lines content).filter fun l => !contains l rcMarker
      (true, Function.update files rc (some ("\n".intercalate kept ++ "\n").toByteArray))
    else (false, files)

-- ---------------------------------------------------------------------------
-- What a file reads as after a text is appended
-- ---------------------------------------------------------------------------

/-- A text begins at a character boundary, so what comes before it is one too or none. -/
theorem isValidUTF8_of_append {b : ByteArray} {t : String}
    (h : (b ++ t.toByteArray).IsValidUTF8) : b.IsValidUTF8 := by
  let s : String := ⟨b ++ t.toByteArray, h⟩
  have hle : (⟨b.size⟩ : String.Pos.Raw) ≤ s.rawEndPos := by
    simp [String.Pos.Raw.le_iff, s, ← String.size_toByteArray]
  have hrest : s.toByteArray.extract b.size s.utf8ByteSize = t.toByteArray := by
    simp [s, ← String.size_toByteArray, ByteArray.extract_append_eq_right]
  have hboundary : (⟨b.size⟩ : String.Pos.Raw).IsValid s := by
    rw [String.Pos.Raw.isValid_iff_isValidUTF8_extract_utf8ByteSize, hrest]
    exact ⟨hle, t.isValidUTF8⟩
  have hbefore := (String.Pos.Raw.isValid_iff_isValidUTF8_extract_zero.mp hboundary).2
  simpa [s, ByteArray.extract_append_eq_left] using hbefore

theorem fromUTF8?_append (b : ByteArray) (t : String) :
    String.fromUTF8? (b ++ t.toByteArray) = (String.fromUTF8? b).map (· ++ t) := by
  unfold String.fromUTF8?
  by_cases hb : b.IsValidUTF8
  · have hall := hb.append t.isValidUTF8
    rw [dif_pos hb, dif_pos hall, Option.map_some, Option.some_inj, ← String.toByteArray_inj]
    simp [String.fromUTF8]
  · rw [dif_neg hb, dif_neg fun h => hb (isValidUTF8_of_append h)]
    rfl

theorem fromUTF8?_toByteArray (s : String) : String.fromUTF8? s.toByteArray = some s := by
  rw [String.fromUTF8?, dif_pos s.isValidUTF8]
  rfl

theorem readToString_update (files : Files) (rc : Path) (content : ByteArray) :
    readToString (Function.update files rc (some content)) rc = String.fromUTF8? content := by
  simp [readToString]

theorem readToString_wireShell {files : Files} {rc : Path} {content : ByteArray}
    (h : files rc = some content) (line : String) :
    readToString (wireShell files rc line) rc =
      (String.fromUTF8? content).map (· ++ (line ++ "\n")) := by
  rw [wireShell, readToString_update, h, Option.getD_some, fromUTF8?_append]

-- ---------------------------------------------------------------------------
-- The lines of a text
-- ---------------------------------------------------------------------------

theorem prefix_stripReturn (line : List Char) : stripReturn line <+: line := by
  unfold stripReturn
  split
  · exact List.dropLast_prefix line
  · exact List.prefix_refl line

theorem stripReturn_eq_self {line : List Char} :
    stripReturn line = line ↔ line.getLast? ≠ some '\r' := by
  unfold stripReturn
  split
  · next h =>
    have hne : line ≠ [] := by
      rintro rfl
      simp at h
    have hlen : line.dropLast.length ≠ line.length := by
      have := List.length_pos_iff.mpr hne
      rw [List.length_dropLast]
      omega
    exact ⟨fun heq => absurd (congrArg List.length heq) hlen, fun hno => absurd h hno⟩
  · next h => simp [h]

theorem mem_lines {l s : String} (h : l ∈ lines s) :
    ∃ piece ∈ s.toList.splitOn '\n', l.toList <+: piece := by
  obtain ⟨line, hline, rfl⟩ := List.mem_map.mp h
  rcases List.mem_append.mp hline with hline | hline
  · obtain ⟨piece, hpiece, rfl⟩ := List.mem_map.mp hline
    exact ⟨piece, List.mem_of_mem_dropLast hpiece, by simpa using prefix_stripReturn piece⟩
  · have hne := List.splitOn_ne_nil '\n' s.toList
    refine ⟨line, ?_, by simp⟩
    split at hline
    · simp at hline
    · rw [List.mem_singleton.mp hline, List.getLastD_eq_getLast?, List.getLast?_eq_some_getLast hne]
      exact List.getLast_mem hne

theorem newline_notMem_of_mem_lines {l s : String} (h : l ∈ lines s) : '\n' ∉ l.toList := by
  obtain ⟨piece, hpiece, hl⟩ := mem_lines h
  exact fun hmem => Separator.not_mem_of_mem_splitOn hpiece (hl.subset hmem)

theorem contains_of_mem_lines {l s pattern : String} (h : l ∈ lines s)
    (hl : contains l pattern = true) : contains s pattern = true := by
  obtain ⟨piece, hpiece, hstart⟩ := mem_lines h
  have hpattern : pattern.toList <:+: l.toList := of_decide_eq_true hl
  exact decide_eq_true
    ((hpattern.trans hstart.isInfix).trans (Separator.infix_of_mem_splitOn hpiece))

theorem lines_ended {s : String} {body : List Char} (h : s.toList = body ++ ['\n']) :
    lines s = (body.splitOn '\n').map fun line => String.ofList (stripReturn line) := by
  simp [lines, LineFeed.lines, h, Separator.splitOn_concat]

theorem length_lines_ended {s : String} {body : List Char} (h : s.toList = body ++ ['\n']) :
    (lines s).length = body.count '\n' + 1 := by
  rw [lines_ended h, List.length_map, Separator.length_splitOn]

theorem lines_ne_nil {s : String} (h : s.toList.getLast? = some '\n') : lines s ≠ [] := by
  obtain ⟨body, hbody⟩ := List.getLast?_eq_some_iff.mp h
  intro hnil
  simpa [hnil] using length_lines_ended hbody

/-- The last line of a text that does not end in a newline is a line too. -/
theorem length_lines_unended {s : String} (hne : s ≠ "") (h : s.toList.getLast? ≠ some '\n') :
    (lines s).length = s.toList.count '\n' + 1 := by
  have hrest : (s.toList.splitOn '\n').getLastD [] ≠ [] := by
    intro hrest
    rcases Separator.ends_of_splitOn hrest with hnil | ⟨body, hbody⟩
    · exact hne (String.toList_eq_nil_iff.mp hnil)
    · exact h (by simp [hbody])
  have hpos : 0 < (s.toList.splitOn '\n').length :=
    List.length_pos_iff.mpr (List.splitOn_ne_nil '\n' s.toList)
  simp only [lines, LineFeed.lines, if_neg hrest, List.length_map, List.length_append,
    List.length_dropLast, List.length_singleton, ← Separator.length_splitOn]
  omega

/-- A text whose last line has ended takes one line more. -/
theorem lines_wired {s line : String} (h : s.toList.getLast? = some '\n')
    (hline : '\n' ∉ line.toList) (hreturn : line.toList.getLast? ≠ some '\r') :
    lines (s ++ (line ++ "\n")) = lines s ++ [line] := by
  obtain ⟨body, hbody⟩ := List.getLast?_eq_some_iff.mp h
  have hall : (s ++ (line ++ "\n")).toList = (body ++ '\n' :: line.toList) ++ ['\n'] := by
    simp [hbody]
  rw [lines_ended hall, lines_ended hbody, List.splitOn_append_cons_self,
    List.splitOn_eq_singleton hline, List.map_append, List.map_singleton,
    stripReturn_eq_self.mpr hreturn, String.ofList_toList]

/-- A line put after one that has not ended is no line of its own. -/
theorem lines_glued {s line : String} (hne : s ≠ "") (h : s.toList.getLast? ≠ some '\n')
    (hline : '\n' ∉ line.toList) : lines (s ++ (line ++ "\n")) ≠ lines s ++ [line] := by
  have hall : (s ++ (line ++ "\n")).toList = (s.toList ++ line.toList) ++ ['\n'] := by simp
  have hlength : (lines (s ++ (line ++ "\n"))).length = (lines s).length := by
    rw [length_lines_ended hall, length_lines_unended hne h, List.count_append,
      List.count_eq_zero_of_not_mem hline, Nat.add_zero]
  intro heq
  rw [heq, List.length_append, List.length_singleton] at hlength
  omega

/-- Lines written back are read as they are, less a carriage return at the end of each. -/
theorem lines_rewritten {kept : List String} (hne : kept ≠ [])
    (hkept : ∀ l ∈ kept, '\n' ∉ l.toList) :
    lines ("\n".intercalate kept ++ "\n") =
      kept.map fun l => String.ofList (stripReturn l.toList) := by
  have hbody : ("\n".intercalate kept ++ "\n").toList =
      ['\n'].intercalate (kept.map String.toList) ++ ['\n'] := by simp
  have hpieces : ∀ l ∈ kept.map String.toList, '\n' ∉ l := by simpa using hkept
  rw [lines_ended hbody, List.splitOn_intercalate '\n' hpieces (by simpa using hne), List.map_map]
  rfl

theorem lines_rewritten_eq_iff {kept : List String} (hne : kept ≠ [])
    (hkept : ∀ l ∈ kept, '\n' ∉ l.toList) :
    lines ("\n".intercalate kept ++ "\n") = kept ↔
      ∀ l ∈ kept, l.toList.getLast? ≠ some '\r' := by
  have hself : ∀ l : String,
      String.ofList (stripReturn l.toList) = l ↔ l.toList.getLast? ≠ some '\r' := by
    intro l
    rw [← stripReturn_eq_self, ← String.toList_inj, String.toList_ofList]
  rw [lines_rewritten hne hkept]
  nth_rewrite 2 [← List.map_id kept]
  simp only [List.map_inj_left, id, hself]

-- ---------------------------------------------------------------------------
-- Onboarding, and offboarding after it
-- ---------------------------------------------------------------------------

def linesAt (files : Files) (path : Path) : Option (List String) :=
  (readToString files path).map lines

/-- A wiring step adds its line and nothing else, is not planned again, and is undone by
offboarding. -/
structure Undone (env : Environment) (home : Path) (config : Option ConfigPlan) (files : Files)
    (rc : Path) (line : String) : Prop where
  wired : linesAt (wireShell files rc line) rc = (linesAt files rc).map (· ++ [line])
  once : ∀ rc' line', Step.wireShell rc' line' ∉
    plan env home (rcWired (wireShell files rc line) rc) config
  restored : linesAt (offboardRc (wireShell files rc line) rc).2 rc = linesAt files rc

/-- A text that ends its last line, with no carriage return left at the end of a line. -/
structure Ended (s : String) : Prop where
  newline : s.toList.getLast? = some '\n'
  noReturn : ∀ l ∈ lines s, l.toList.getLast? ≠ some '\r'

/-- The bytes of an rc file and a bind address that onboarding can be undone for. -/
def Restorable (content : ByteArray) (bind : String) : Prop :=
  '\n' ∉ bind.toList ∧ ∃ s, String.fromUTF8? content = some s ∧ Ended s

/-- What a planned wiring step is known by: its file has no marker and its line has one. -/
structure Planned (env : Environment) (files : Files) (rc : Path) (line : String) : Prop where
  routed : env.alreadyRouted = false
  unmarked : rcWired files rc = false
  marked : contains line rcMarker = true
  noReturn : line.toList.getLast? ≠ some '\r'
  newline : '\n' ∈ line.toList ↔ '\n' ∈ env.bind.toList

theorem planned_of_mem {env : Environment} {home : Path} {config : Option ConfigPlan}
    {files : Files} {rc : Path} {line : String}
    (h : Step.wireShell rc line ∈ plan env home (rcWired files rc) config) :
    Planned env files rc line := by
  obtain ⟨hrouted, hunmarked, hwiring⟩ := mem_plan_wireShell.mp h
  obtain ⟨head, hhead, hline⟩ := shellWiring_line env.shell home env.bind
  simp only [hwiring] at hline
  have htail : '\n' ∉ rcMarker.toList := by simp [rcMarker]
  have hlast : rcMarker.toList.getLast? = some '\x60' := by simp [rcMarker]
  refine ⟨hrouted, hunmarked, decide_eq_true ?_, ?_, ?_⟩
  · rw [hline, String.toList_append]
    exact (List.suffix_append _ _).isInfix
  · rw [hline, String.toList_append, List.getLast?_append, hlast]
    simp
  · simp [hline, hhead, htail]

section
variable {env : Environment} {home : Path} {config : Option ConfigPlan} {files : Files} {rc : Path}
  {line s : String} {content : ByteArray}

theorem linesAt_content (hcontent : files rc = some content)
    (hs : String.fromUTF8? content = some s) : linesAt files rc = some (lines s) := by
  simp [linesAt, readToString, hcontent, hs]

theorem readToString_wired (hcontent : files rc = some content)
    (hs : String.fromUTF8? content = some s) :
    readToString (wireShell files rc line) rc = some (s ++ (line ++ "\n")) := by
  rw [readToString_wireShell hcontent, hs, Option.map_some]

theorem Planned.rcWired_wireShell (h : Planned env files rc line)
    (hcontent : files rc = some content) :
    rcWired (wireShell files rc line) rc = (String.fromUTF8? content).isSome := by
  rw [rcWired, readToString_wireShell hcontent]
  cases String.fromUTF8? content with
  | none => rfl
  | some s =>
    have hline : rcMarker.toList <:+: line.toList := of_decide_eq_true h.marked
    refine decide_eq_true (hline.trans ?_)
    exact ⟨s.toList, ['\n'], by simp⟩

theorem Planned.keeps (h : Planned env files rc line) (hcontent : files rc = some content)
    (hs : String.fromUTF8? content = some s) :
    (lines s ++ [line]).filter (fun l => !contains l rcMarker) = lines s := by
  have hfree : contains s rcMarker = false := by
    simpa [rcWired, readToString, hcontent, hs] using h.unmarked
  have hkept : (lines s).filter (fun l => !contains l rcMarker) = lines s := by
    refine List.filter_eq_self.mpr fun l hl => ?_
    cases hmarked : contains l rcMarker with
    | false => rfl
    | true => simp [contains_of_mem_lines hl hmarked] at hfree
  simp [List.filter_append, hkept, h.marked]

/-- Offboarding writes back the lines that were there before the wiring line. -/
theorem Planned.linesAt_offboardRc (h : Planned env files rc line)
    (hcontent : files rc = some content) (hs : String.fromUTF8? content = some s)
    (hwired : lines (s ++ (line ++ "\n")) = lines s ++ [line]) :
    linesAt (offboardRc (wireShell files rc line) rc).2 rc =
      some (lines ("\n".intercalate (lines s) ++ "\n")) := by
  have hread : readToString (wireShell files rc line) rc = some (s ++ (line ++ "\n")) :=
    readToString_wired hcontent hs
  have hmarked : contains (s ++ (line ++ "\n")) rcMarker = true := by
    simpa [rcWired, hread, hs] using h.rcWired_wireShell hcontent
  simp only [offboardRc, hread, hmarked, if_true, hwired, h.keeps hcontent hs]
  rw [linesAt, readToString_update, fromUTF8?_toByteArray, Option.map_some]

theorem Planned.undone (h : Planned env files rc line) (hcontent : files rc = some content)
    (hrestorable : Restorable content env.bind) : Undone env home config files rc line := by
  obtain ⟨hbind, s, hs, hended⟩ := hrestorable
  have hline : '\n' ∉ line.toList := fun hmem => hbind (h.newline.mp hmem)
  have hwired := lines_wired hended.newline hline h.noReturn
  have hbefore := linesAt_content hcontent hs
  refine ⟨?_, ?_, ?_⟩
  · rw [hbefore, linesAt, readToString_wired hcontent hs, Option.map_some, hwired]
    rfl
  · intro rc' line' hmem
    obtain ⟨-, hunwired, -⟩ := mem_plan_wireShell.mp hmem
    rw [h.rcWired_wireShell hcontent, hs] at hunwired
    cases hunwired
  · have hkept := lines_rewritten_eq_iff (lines_ne_nil hended.newline)
      fun l => newline_notMem_of_mem_lines
    rw [h.linesAt_offboardRc hcontent hs hwired, hbefore, hkept.mpr hended.noReturn]

theorem Planned.restorable (h : Planned env files rc line) (hcontent : files rc = some content)
    (hundone : Undone env home config files rc line) : Restorable content env.bind := by
  cases hs : String.fromUTF8? content with
  | none =>
    -- A file that is no text is never seen to be wired, so the step is planned again.
    have hunwired : rcWired (wireShell files rc line) rc = false := by
      rw [h.rcWired_wireShell hcontent, hs, Option.isSome_none]
    exact absurd (mem_plan_wireShell.mpr ⟨h.routed, hunwired, rfl⟩) (hundone.once _ _)
  | some s =>
    have hbefore := linesAt_content hcontent hs
    have hwired : lines (s ++ (line ++ "\n")) = lines s ++ [line] := by
      have hafter := hundone.wired
      rw [hbefore, linesAt, readToString_wired hcontent hs] at hafter
      exact Option.some.inj hafter
    have hrestored : lines ("\n".intercalate (lines s) ++ "\n") = lines s := by
      have hafter := hundone.restored
      rw [h.linesAt_offboardRc hcontent hs hwired, hbefore] at hafter
      exact Option.some.inj hafter
    have hmem : line ∈ lines (s ++ (line ++ "\n")) := by simp [hwired]
    have hline : '\n' ∉ line.toList := newline_notMem_of_mem_lines hmem
    have hne : s ≠ "" := by
      rintro rfl
      simp [show lines "" = [] from rfl, show lines "\n" = [""] from rfl] at hrestored
    have hnewline : s.toList.getLast? = some '\n' := by
      by_contra hopen
      exact lines_glued hne hopen hline hwired
    refine ⟨fun hmem => hline (h.newline.mpr hmem), s, hs, hnewline, ?_⟩
    exact (lines_rewritten_eq_iff (lines_ne_nil hnewline)
      fun l => newline_notMem_of_mem_lines).mp hrestored

/-- A planned wiring step is undone by offboarding exactly when the rc file is a text whose last
line has ended, no line of it keeps a carriage return at its end, and the address is one line. -/
theorem offboard_undoes_iff
    (hplan : Step.wireShell rc line ∈ plan env home (rcWired files rc) config)
    (hcontent : files rc = some content) :
    Undone env home config files rc line ↔ Restorable content env.bind :=
  ⟨(planned_of_mem hplan).restorable hcontent, (planned_of_mem hplan).undone hcontent⟩

end

-- ---------------------------------------------------------------------------
-- An rc file that ends its last line, and one that does not
-- ---------------------------------------------------------------------------

def sampleEnv : Environment := ⟨"zsh", true, false, false, "127.0.0.1:8080"⟩

def sampleRc : Path := [".zshrc"]

def sampleLine : String :=
  "export ANTHROPIC_BASE_URL=http://127.0.0.1:8080  # added by `firstpass onboard`"

/-- An rc file of one text, and no other file. -/
def oneFile (s : String) : Files := Function.update (fun _ => none) sampleRc (some s.toByteArray)

theorem oneFile_rc (s : String) : oneFile s sampleRc = some s.toByteArray := Function.update_self ..

theorem sample_planned {s : String} (h : contains s rcMarker = false) :
    Step.wireShell sampleRc sampleLine ∈
      plan sampleEnv [] (rcWired (oneFile s) sampleRc) none := by
  refine mem_plan_wireShell.mpr ⟨rfl, ?_, by decide +kernel⟩
  simp [rcWired, oneFile, readToString_update, fromUTF8?_toByteArray, h]

theorem offboard_undoes_sample :
    Undone sampleEnv [] none (oneFile "alias ll='ls -l'\n") sampleRc sampleLine ∧
      '\n' ∉ sampleEnv.bind.toList := by
  have hended : Ended "alias ll='ls -l'\n" :=
    ⟨by decide +kernel, by decide +kernel⟩
  have hrestorable : Restorable "alias ll='ls -l'\n".toByteArray sampleEnv.bind :=
    ⟨by decide +kernel, _, fromUTF8?_toByteArray _, hended⟩
  have hplan := sample_planned (s := "alias ll='ls -l'\n") (by decide +kernel)
  exact ⟨(offboard_undoes_iff hplan (oneFile_rc _)).mpr hrestorable, hrestorable.1⟩

/-- The wiring line goes on a last line that has not ended, and offboarding removes both. -/
theorem unended_line_lost :
    Step.wireShell sampleRc sampleLine ∈
        plan sampleEnv [] (rcWired (oneFile "alias ll='ls -l'") sampleRc) none ∧
      linesAt (wireShell (oneFile "alias ll='ls -l'") sampleRc sampleLine) sampleRc =
        some ["alias ll='ls -l'" ++ sampleLine] ∧
      linesAt (offboardRc (wireShell (oneFile "alias ll='ls -l'") sampleRc sampleLine)
        sampleRc).2 sampleRc = some [""] ∧
      ¬ Undone sampleEnv [] none (oneFile "alias ll='ls -l'") sampleRc sampleLine := by
  have hread : readToString (wireShell (oneFile "alias ll='ls -l'") sampleRc sampleLine) sampleRc =
      some ("alias ll='ls -l'" ++ (sampleLine ++ "\n")) :=
    readToString_wired (oneFile_rc _) (fromUTF8?_toByteArray _)
  have hlines : lines ("alias ll='ls -l'" ++ (sampleLine ++ "\n")) =
      ["alias ll='ls -l'" ++ sampleLine] := by decide +kernel
  have hmarked : contains ("alias ll='ls -l'" ++ (sampleLine ++ "\n")) rcMarker = true := by
    decide +kernel
  have hglued : contains ("alias ll='ls -l'" ++ sampleLine) rcMarker = true := by decide +kernel
  have hbefore : linesAt (oneFile "alias ll='ls -l'") sampleRc = some ["alias ll='ls -l'"] := by
    rw [linesAt_content (oneFile_rc _) (fromUTF8?_toByteArray _)]
    decide +kernel
  have hafter : linesAt (offboardRc (wireShell (oneFile "alias ll='ls -l'") sampleRc sampleLine)
      sampleRc).2 sampleRc = some [""] := by
    simp only [offboardRc, hread, hmarked, if_true, hlines]
    rw [linesAt, readToString_update, fromUTF8?_toByteArray]
    simp only [List.filter_cons, hglued]
    decide +kernel
  refine ⟨sample_planned (by decide +kernel), by rw [linesAt, hread, Option.map_some, hlines],
    hafter, fun h => ?_⟩
  have hrestored := h.restored
  rw [hafter, hbefore] at hrestored
  exact absurd hrestored (by decide)

end Firstpass.Onboard
