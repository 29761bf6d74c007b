import Mathlib.Data.List.DropRight
import ShadowTrace.Proofs.FileTree
import ShadowTrace.Proofs.Splitting

/-! # Threads that share a dump

The path of a dump ends with the name of its thread, and then its extension is replaced: what stands
behind the last dot of the name is lost. Two threads get one path exactly if their names become the
same by that, and as a path says by itself where its file is, these are exactly the threads whose
dumps are one file. -/

namespace ShadowTrace

namespace Path

/-! ## Extensions -/

theorem stem_append {before ending : String} (some : before ≠ "") (whole : '.' ∉ ending.toList) :
    stem (before ++ "." ++ ending) = before := by
  have dropped : (before ++ "." ++ ending).toList.reverse.dropWhile (· ≠ '.') =
      '.' :: before.toList.reverse := by
    have all : ∀ c ∈ ending.toList.reverse, (c ≠ '.' : Bool) := by
      intro c member
      simp only [ne_eq, decide_not, Bool.not_eq_eq_eq_not, Bool.not_true, decide_eq_false_iff_not]
      rintro rfl
      exact whole (by simpa using member)
    have reversed : (before ++ "." ++ ending).toList.reverse =
        ending.toList.reverse ++ '.' :: before.toList.reverse := by
      simp
    rw [reversed, List.dropWhile_append_of_pos all]
    simp
  have rest : before.toList.reverse ≠ [] := by simpa using some
  obtain ⟨c, chars, reversed⟩ := List.exists_cons_of_ne_nil rest
  simp only [stem, dropped]
  rw [reversed]
  simp only [← reversed, List.reverse_reverse, String.ofList_toList]

/-- A name has an extension behind its stem, or it is its own stem. -/
theorem stem_cases (name : String) :
    stem name = name ∨ ∃ ending,
      '.' ∉ ending.toList ∧ stem name ≠ "" ∧ name = stem name ++ "." ++ ending := by
  have cut : name.toList.reverse.takeWhile (· ≠ '.') ++ name.toList.reverse.dropWhile (· ≠ '.') =
      name.toList.reverse :=
    List.takeWhile_append_dropWhile
  -- Read from the end up to the last dot: there is none, or it is the first character, or there is
  -- a stem before it.
  rcases dropped : name.toList.reverse.dropWhile (· ≠ '.') with _ | ⟨c, _ | ⟨d, before⟩⟩
  · exact .inl (by simp only [stem, dropped])
  · exact .inl (by simp only [stem, dropped])
  · right
    have stem_eq : stem name = String.ofList (d :: before).reverse := by simp only [stem, dropped]
    refine ⟨String.ofList (name.toList.reverse.takeWhile (· ≠ '.')).reverse, ?_, ?_, ?_⟩
    · intro member
      have := List.mem_takeWhile_imp (List.mem_reverse.mp (by simpa using member))
      simp at this
    · rw [stem_eq]
      simp [← String.toList_eq_nil_iff]
    · have dot : c = '.' := by
        have := List.head?_dropWhile_not (· ≠ '.') name.toList.reverse
        rw [dropped] at this
        simpa using this
      have text := congrArg List.reverse cut
      rw [dropped, dot, List.reverse_append, List.reverse_reverse] at text
      refine String.toList_inj.mp (text.symm.trans ?_)
      simp [stem_eq]

theorem extensionLength_eq {name ending : String} (parts : name = stem name ++ "." ++ ending) :
    extensionLength name = ending.length := by
  have length := congrArg String.length parts
  simp only [String.length_append, show ".".length = 1 from rfl] at length
  unfold extensionLength
  omega

/-- Segments behind a path, with a slash before each. -/
def trail (segments : List String) : String :=
  String.ofList (segments.flatMap fun segment => '/' :: segment.toList)

theorem intercalate_append_trail (before : List String) (name : String) (behind : List String) :
    "/".intercalate (before ++ [name]) ++ trail behind =
      "/".intercalate (before ++ name :: behind) := by
  have single (parts : List String) (last : String) :
      "/".intercalate (last :: parts) = last ++ trail parts := by
    rw [← String.toList_inj, Text.toList_intercalate_cons]
    simp [trail]
  cases before with
  | nil => simp [single, trail]
  | cons first before =>
    rw [String.intercalate_append_of_ne_nil (by simp) (by simp),
      String.intercalate_append_of_ne_nil (by simp) (by simp), single behind,
      String.intercalate_singleton, String.append_assoc]

theorem intercalate_append (before : List String) (name ending : String) :
    "/".intercalate (before ++ [name ++ ending]) =
      "/".intercalate (before ++ [name]) ++ ending := by
  cases before with
  | nil => simp
  | cons first before =>
    rw [String.intercalate_append_of_ne_nil (by simp) (by simp),
      String.intercalate_append_of_ne_nil (by simp) (by simp)]
    simp [String.append_assoc]

theorem slashless_of_isIdle {segment : String} (idle : isIdle segment = true) :
    '/' ∉ segment.toList := by
  have : segment = "" ∨ segment = "." := by simpa [isIdle] using idle
  rcases this with rfl | rfl <;> decide

/-- Idle segments do not count for the last name. -/
theorem named_trail (before : List String) (name : String) (behind : List String)
    (whole : ∀ segment ∈ before ++ [name], '/' ∉ segment.toList) (busy : isIdle name = false)
    (idle : ∀ segment ∈ behind, isIdle segment = true) :
    named ("/".intercalate (before ++ [name]) ++ trail behind) = before ++ [name] := by
  have split : segments ("/".intercalate (before ++ [name]) ++ trail behind) =
      before ++ [name] ++ behind := by
    rw [intercalate_append_trail, segments_intercalate (by simp), List.append_assoc,
      List.singleton_append]
    intro segment member
    rcases List.mem_append.mp member with member | member
    · exact whole segment (by simp [member])
    · rcases List.mem_cons.mp member with rfl | member
      · exact whole segment (by simp)
      · exact slashless_of_isIdle (idle segment member)
  have trimmed : ((before ++ [name] ++ behind).reverse.dropWhile isIdle).reverse =
      before ++ [name] := by
    rw [List.reverse_append, List.dropWhile_append_of_pos (by simpa using idle)]
    simp [busy]
  rw [named, split, trimmed]

/-- A piece of idle segments is made of idle segments. -/
theorem take_trail {behind : List String} (idle : ∀ segment ∈ behind, isIdle segment = true)
    (count : Nat) :
    ∃ rest,
      (∀ segment ∈ rest, isIdle segment = true) ∧
      String.ofList ((trail behind).toList.take count) = trail rest := by
  induction behind generalizing count with
  | nil => exact ⟨[], by simp, by simp [trail]⟩
  | cons segment behind ih =>
    have cases : segment = "" ∨ segment = "." := by simpa [isIdle] using idle segment (by simp)
    obtain ⟨rest, resting, same⟩ :=
      ih (fun segment member => idle segment (by simp [member])) (count - 1 - segment.length)
    -- Nothing of the segment is left, or only its slash, or all of it.
    rcases count with _ | _ | count
    · exact ⟨[], by simp, by simp [trail]⟩
    · exact ⟨[""], by simp [isIdle], by simp [trail]⟩
    · refine ⟨segment :: rest, by simpa [idle segment (by simp)] using resting, ?_⟩
      rw [← String.toList_inj] at same ⊢
      rcases cases with rfl | rfl <;> simpa [trail, show ".".length = 1 from rfl] using same

/-- Cutting as many characters from the end of a path as its extension has leaves the stem and the
dot, and behind them no less than what stood behind the extension was long. -/
theorem exists_cut (before : List String) (kept ending : String) {behind : List String}
    (idle : ∀ segment ∈ behind, isIdle segment = true) {path : String}
    (parts : path = "/".intercalate (before ++ [kept ++ ending]) ++ trail behind) :
    ∃ more rest, (∀ segment ∈ rest, isIdle segment = true) ∧ more.toList <+: ending.toList ∧
      (behind = [] → more = "" ∧ rest = []) ∧ (behind ≠ [] → more = "" → ending = "") ∧
      String.ofList (path.toList.take (path.length - ending.length)) =
        "/".intercalate (before ++ [kept ++ more]) ++ trail rest := by
  have chars : path.toList =
      ("/".intercalate (before ++ [kept])).toList ++ (ending.toList ++ (trail behind).toList) := by
    rw [parts, intercalate_append]
    simp only [String.toList_append, List.append_assoc]
  have cut : path.toList.take (path.length - ending.length) =
      ("/".intercalate (before ++ [kept])).toList ++
        (ending.toList ++ (trail behind).toList).take (trail behind).toList.length := by
    have length : path.length - ending.length =
        ("/".intercalate (before ++ [kept])).toList.length + (trail behind).toList.length := by
      rw [← String.length_toList, chars]
      simp only [List.length_append, String.length_toList]
      omega
    rw [chars, length, List.take_length_add_append]
  have length_pos (some : behind ≠ []) : (trail behind).toList ≠ [] := by
    obtain ⟨segment, rest, rfl⟩ := List.exists_cons_of_ne_nil some
    simp [trail]
  rcases Nat.lt_or_ge ending.toList.length (trail behind).toList.length with short | long
  · -- The whole extension is still there.
    obtain ⟨rest, resting, same⟩ :=
      take_trail idle ((trail behind).toList.length - ending.toList.length)
    refine ⟨ending, rest, resting, List.prefix_rfl, ?_, fun _ => id, ?_⟩
    · rintro rfl
      simp [trail] at short
    · rw [cut, List.take_append, List.take_of_length_le short.le, String.ofList_append,
        String.ofList_append, same, intercalate_append, String.ofList_toList, String.ofList_toList,
        String.append_assoc]
  · refine ⟨String.ofList (ending.toList.take (trail behind).toList.length), [], by simp, ?_,
      ?_, ?_, ?_⟩
    · simpa using List.take_prefix _ _
    · rintro rfl
      simp [trail]
    · intro some empty
      rw [← String.toList_eq_nil_iff] at empty ⊢
      have := length_pos some
      simpa [this] using empty
    · rw [cut, List.take_append_of_le_length long, String.ofList_append, intercalate_append,
        String.ofList_toList]
      simp only [trail, List.flatMap_nil, String.ofList_nil, String.append_empty]

/-- A name with another extension. -/
def extended (name extension : String) : String :=
  stem name ++ if extension.isEmpty then "" else "." ++ extension

/-- What the last name of a path becomes when its extension is cut and another one is set: two dots
that are left over by the cut lead up, and stay. -/
def renamed (name extension : String) : String :=
  if stem name = "." then ".." else extended name extension

theorem setExtension_eq {path : String} {before : List String} {name : String}
    (split : named path = before ++ [name]) (extension : String) :
    setExtension path extension = if name = ".." then path
      else "/".intercalate (before ++ [extended name extension]) := by
  simp [setExtension, split, extended]

theorem append_dot_ne {before more : String} (some : before ≠ "")
    (long : more ≠ "" ∨ before ≠ ".") :
    before ++ "." ++ more ≠ ".." := by
  intro same
  have chars : before.toList ++ '.' :: more.toList = ['.', '.'] := by
    simpa using congrArg String.toList same
  rcases first : before.toList with _ | ⟨c, _ | ⟨d, rest⟩⟩
  · exact some (String.toList_eq_nil_iff.mp first)
  · rw [first] at chars
    simp only [List.cons_append, List.nil_append, List.cons.injEq, true_and] at chars
    obtain ⟨rfl, rest⟩ := chars
    rcases long with long | long
    · exact long (String.toList_eq_nil_iff.mp rest)
    · exact long (String.toList_inj.mp first)
  · rw [first] at chars
    simp at chars

theorem isIdle_append_dot {before : String} (some : before ≠ "") (more : String) :
    isIdle (before ++ "." ++ more) = false := by
  have long : 2 ≤ (before ++ "." ++ more).length := by
    have : before.length ≠ 0 := by simpa using some
    simp only [String.length_append, show ".".length = 1 from rfl]
    omega
  simp only [isIdle, Bool.or_eq_false_iff, decide_eq_false_iff_not]
  constructor <;> intro same <;> rw [same] at long <;> exact absurd long (by decide)

/-- The extension of a path is set at its last name. Only a path that leads up has none, and one
that would do so without its extension if nothing stands behind that. -/
theorem withExtension_eq (before : List String) (name : String) (behind : List String)
    (whole : ∀ segment ∈ before ++ [name], '/' ∉ segment.toList) (busy : isIdle name = false)
    (idle : ∀ segment ∈ behind, isIdle segment = true) (extension : String) :
    withExtension ("/".intercalate (before ++ [name]) ++ trail behind) extension =
      if behind = [] then
        "/".intercalate (before ++ [renamed name extension])
      else if name = ".." then "/".intercalate (before ++ [name]) ++ trail behind
      else "/".intercalate (before ++ [extended name extension]) := by
  have split := named_trail before name behind whole busy idle
  have last : (named ("/".intercalate (before ++ [name]) ++ trail behind)).getLast?.getD "" =
    name := by simp [split]
  rcases stem_cases name with own | ⟨ending, dotless, some, parts⟩
  · -- There is no extension to cut.
    have length : extensionLength name = 0 := by simp [extensionLength, own]
    have up : name ≠ ".." := by
      rintro rfl
      exact absurd own (by decide)
    have dot : stem name ≠ "." := by
      rw [own]
      rintro rfl
      exact absurd busy (by decide)
    simp only [withExtension, last, length, Nat.sub_zero, ← String.length_toList, List.take_length,
      String.ofList_toList, setExtension_eq split, renamed, up, dot, if_false, ite_self]
  · have length := extensionLength_eq parts
    have written : "/".intercalate (before ++ [name]) ++ trail behind =
        "/".intercalate (before ++ [stem name ++ "." ++ ending]) ++ trail behind := by rw [← parts]
    obtain ⟨more, rest, resting, start, bare, full, cut⟩ :=
      exists_cut before (stem name ++ ".") ending idle written
    have shown : '.' ∉ more.toList := fun member => dotless (start.subset member)
    have same : stem (stem name ++ "." ++ more) = stem name := stem_append some shown
    have slashless : ∀ segment ∈ before ++ [stem name ++ "." ++ more], '/' ∉ segment.toList := by
      intro segment member
      rcases List.mem_append.mp member with member | member
      · exact whole segment (by simp [member])
      · obtain rfl := List.mem_singleton.mp member
        have own := whole name (by simp)
        rw [parts] at own
        simp only [String.toList_append, List.mem_append, not_or] at own ⊢
        exact ⟨own.1, fun member => own.2 (start.subset member)⟩
    -- What is left after the cut has the same stem, and so gets the same name with the new
    -- extension.
    have cut_split :=
      named_trail before (stem name ++ "." ++ more) rest slashless
        (isIdle_append_dot some more) resting
    have name_eq : extended (stem name ++ "." ++ more) extension = extended name extension := by
      simp [extended, same]
    simp only [withExtension, last, length, cut, setExtension_eq cut_split, name_eq]
    by_cases nothing : behind = []
    · obtain ⟨rfl, rfl⟩ := bare nothing
      simp only [nothing, if_true, renamed]
      by_cases dot : stem name = "."
      · simp [dot, trail]
      · rw [if_neg (append_dot_ne some (.inr dot)), if_neg dot]
    · simp only [nothing, if_false]
      by_cases up : name = ".."
      · -- There is no extension after all.
        have none : ending = "" := by
          have chars := congrArg String.toList parts
          rw [up, show stem ".." = "." from rfl] at chars
          simpa using chars.symm
        have empty : more = "" := by simpa [none] using start
        have whole_path : "/".intercalate (before ++ [name]) ++ trail behind =
            "/".intercalate (before ++ [stem name ++ "." ++ more]) ++ trail rest := by
          rw [← cut, none, show "".length = 0 from rfl, Nat.sub_zero, ← String.length_toList,
            List.take_length, String.ofList_toList]
        rw [if_pos (by rw [empty, up]; rfl), if_pos up, whole_path]
      · have other : stem name ++ "." ++ more ≠ ".." := by
          by_cases empty : more = ""
          · rw [empty, ← full nothing empty, ← parts]
            exact up
          · exact append_dot_ne some (.inl empty)
        rw [if_neg other, if_neg up]

theorem withExtension_nameless {path : String} (nameless : named path = []) (extension : String) :
    withExtension path extension = path := by
  have length : extensionLength "" = 0 := by decide
  simp [withExtension, nameless, length, setExtension, ← String.length_toList]

theorem stem_isPrefix (name : String) : (stem name).toList <+: name.toList := by
  rcases stem_cases name with own | ⟨ending, -, -, parts⟩
  · simp [own]
  · refine ⟨'.' :: ending.toList, ?_⟩
    conv_rhs => rw [parts]
    simp

theorem slashless_extended {name extension : String} (whole : '/' ∉ name.toList)
    (plain : '/' ∉ extension.toList) :
    '/' ∉ (extended name extension).toList := by
  have stem : '/' ∉ (stem name).toList := fun member => whole ((stem_isPrefix name).subset member)
  unfold extended
  split <;> simp [stem, plain]

theorem slashless_renamed {name extension : String} (whole : '/' ∉ name.toList)
    (plain : '/' ∉ extension.toList) :
    '/' ∉ (renamed name extension).toList := by
  unfold renamed
  split
  · decide
  · exact slashless_extended whole plain

/-- A name that leads somewhere still does with another extension. -/
theorem isIdle_renamed {name : String} (busy : isIdle name = false) (extension : String) :
    isIdle (renamed name extension) = false := by
  have stem_ne : stem name ≠ "" := by
    rcases stem_cases name with own | ⟨ending, -, some, -⟩
    · rw [own]
      rintro rfl
      exact absurd busy (by decide)
    · exact some
  unfold renamed
  split
  · rfl
  next dot =>
    unfold extended
    split
    · simp [isIdle, stem_ne, dot]
    · simpa [String.append_assoc] using isIdle_append_dot stem_ne extension

theorem join_append (folder path : String) {name : String} (whole : '/' ∉ name.toList) :
    join folder (path ++ name) = join folder path ++ name := by
  have absolute : isAbsolute (path ++ name) = isAbsolute path := by
    unfold isAbsolute
    cases chars : path.toList with
    | nil =>
      cases letters : name.toList with
      | nil => simp [chars, letters]
      | cons c rest =>
        rw [letters, List.mem_cons, not_or] at whole
        simp [chars, letters, Ne.symm whole.1]
    | cons c rest => simp [chars]
  unfold join
  rw [absolute]
  split
  · rfl
  · split <;> simp [String.append_assoc]

end Path

namespace DumpSettings

/-- What stands before the name of the thread in the path of its dump. -/
def start (settings : DumpSettings) : String :=
  Path.join settings.folder (settings.namePrefix.getD "sym_trace_")

/-- The last name of the path before its extension is set. -/
def lastName (settings : DumpSettings) (thread : String) : String :=
  (Path.segments settings.start).getLast?.getD "" ++ thread

/-- What stands before the last name. -/
def above (settings : DumpSettings) : List String := (Path.segments settings.start).dropLast

variable {settings : DumpSettings} {thread : String}

theorem segments_start (settings : DumpSettings) (whole : '/' ∉ thread.toList) :
    settings.start ++ thread = "/".intercalate (settings.above ++ [settings.lastName thread]) ∧
      ∀ segment ∈ settings.above ++ [settings.lastName thread], '/' ∉ segment.toList := by
  obtain ⟨before, last, alone, together⟩ := Path.segments_append settings.start whole
  have split : settings.above ++ [settings.lastName thread] =
      Path.segments (settings.start ++ thread) := by
    simp [above, lastName, alone, together]
  rw [split]
  exact ⟨(Path.intercalate_segments _).symm, fun _ => Path.not_mem_of_mem_segments⟩

theorem path_eq (settings : DumpSettings) (whole : '/' ∉ thread.toList) :
    settings.path thread =
      Path.withExtension ("/".intercalate (settings.above ++ [settings.lastName thread]))
        settings.extensionOrDefault := by
  rw [path, Path.join_append _ _ whole, ← (settings.segments_start whole).1, start]

theorem segments_path_of_busy (whole : '/' ∉ thread.toList)
    (plain : '/' ∉ settings.extensionOrDefault.toList)
    (busy : Path.isIdle (settings.lastName thread) = false) :
    Path.segments (settings.path thread) =
      settings.above ++ [Path.renamed (settings.lastName thread) settings.extensionOrDefault] := by
  have whole_all := (settings.segments_start whole).2
  have eq :=
    Path.withExtension_eq settings.above (settings.lastName thread) [] whole_all busy (by simp)
    settings.extensionOrDefault
  simp only [Path.trail, List.flatMap_nil, String.ofList_nil, String.append_empty, if_true] at eq
  rw [settings.path_eq whole, eq, Path.segments_intercalate (by simp)]
  intro segment member
  rcases List.mem_append.mp member with member | member
  · exact whole_all segment (by simp [member])
  · rw [List.mem_singleton.mp member]
    exact Path.slashless_renamed (whole_all _ (by simp)) plain

/-- The segments above the thread's name up to the last that names something, and the idle ones
behind it. -/
theorem above_parts (settings : DumpSettings) :
    (∀ segment ∈ settings.above, Path.isIdle segment = true) ∨
      ∃ before name behind, settings.above = before ++ name :: behind ∧ Path.isIdle name = false ∧
        ∀ segment ∈ behind, Path.isIdle segment = true := by
  rcases List.eq_nil_or_concat (settings.above.rdropWhile Path.isIdle) with none
    | ⟨before, name, busy⟩
  · exact .inl (List.rdropWhile_eq_nil_iff.mp none)
  · refine .inr ⟨before, name, settings.above.rtakeWhile Path.isIdle, ?_, ?_,
      fun segment => List.mem_rtakeWhile_imp⟩
    · have parts : settings.above.rdropWhile Path.isIdle ++ settings.above.rtakeWhile Path.isIdle =
          settings.above :=
        List.rdropWhile_append_rtakeWhile
      simpa [busy] using parts.symm
    · have last := List.rdropWhile_last_not Path.isIdle settings.above (by rw [busy]; simp)
      simpa [busy] using last

/-- If the last name is idle the extension goes to the last one above it, if there is one and it
does not lead up. -/
theorem path_of_idle (whole : '/' ∉ thread.toList)
    (idle : Path.isIdle (settings.lastName thread) = true) {before behind : List String}
    {name : String} (parts : settings.above = before ++ name :: behind)
    (busy : Path.isIdle name = false) (resting : ∀ segment ∈ behind, Path.isIdle segment = true) :
    settings.path thread =
      if name = ".." then "/".intercalate (settings.above ++ [settings.lastName thread])
      else "/".intercalate (before ++ [Path.extended name settings.extensionOrDefault]) := by
  obtain ⟨-, whole_all⟩ := settings.segments_start whole
  have above : ∀ segment ∈ before ++ [name], '/' ∉ segment.toList := by
    intro segment member
    apply whole_all segment
    rw [parts]
    rcases List.mem_append.mp member with member | member <;> simp_all
  have all_idle : ∀ segment ∈ behind ++ [settings.lastName thread], Path.isIdle segment = true := by
    intro segment member
    rcases List.mem_append.mp member with member | member
    · exact resting segment member
    · rw [List.mem_singleton.mp member]
      exact idle
  have eq :=
    Path.withExtension_eq before name (behind ++ [settings.lastName thread]) above busy all_idle
    settings.extensionOrDefault
  rw [Path.intercalate_append_trail, if_neg (by simp)] at eq
  rw [settings.path_eq whole, parts, List.append_assoc, List.cons_append, eq]

theorem path_of_nameless (whole : '/' ∉ thread.toList)
    (idle : Path.isIdle (settings.lastName thread) = true)
    (resting : ∀ segment ∈ settings.above, Path.isIdle segment = true) :
    settings.path thread = "/".intercalate (settings.above ++ [settings.lastName thread]) := by
  obtain ⟨-, whole_all⟩ := settings.segments_start whole
  rw [settings.path_eq whole, Path.withExtension_nameless]
  rw [Path.named, Path.segments_intercalate (by simp) whole_all]
  apply List.rdropWhile_eq_nil_iff.mpr
  intro segment member
  rcases List.mem_append.mp member with member | member
  · exact resting segment member
  · rw [List.mem_singleton.mp member]
    exact idle

/-- The last segment above the thread's name that names something, if it does not lead up, and the
segments before it. -/
def Carries (settings : DumpSettings) (before : List String) (name : String) : Prop :=
  ∃ behind, settings.above = before ++ name :: behind ∧ Path.isIdle name = false ∧ name ≠ ".." ∧
    ∀ segment ∈ behind, Path.isIdle segment = true

/-- If the last name is idle, the extension goes to the last one above it. -/
theorem segments_path_of_carries (whole : '/' ∉ thread.toList)
    (plain : '/' ∉ settings.extensionOrDefault.toList)
    (idle : Path.isIdle (settings.lastName thread) = true) {before : List String} {name : String}
    (carries : settings.Carries before name) :
    Path.segments (settings.path thread) =
      before ++ [Path.extended name settings.extensionOrDefault] := by
  obtain ⟨behind, parts, busy, up, resting⟩ := carries
  obtain ⟨-, slashless⟩ := settings.segments_start whole
  rw [parts] at slashless
  have eq := settings.path_of_idle whole idle parts busy resting
  rw [if_neg up] at eq
  rw [eq, Path.segments_intercalate (by simp)]
  intro segment member
  rcases List.mem_append.mp member with member | member
  · exact slashless segment (by simp [member])
  · rw [List.mem_singleton.mp member]
    exact Path.slashless_extended (slashless name (by simp)) plain

theorem segments_path_of_not_carries (whole : '/' ∉ thread.toList)
    (idle : Path.isIdle (settings.lastName thread) = true)
    (nothing : ∀ before name, ¬ settings.Carries before name) :
    Path.segments (settings.path thread) = settings.above ++ [settings.lastName thread] := by
  have same : settings.path thread =
      "/".intercalate (settings.above ++ [settings.lastName thread]) := by
    rcases settings.above_parts with resting | ⟨before, name, behind, parts, busy, resting⟩
    · exact settings.path_of_nameless whole idle resting
    · have up : name = ".." := by
        by_contra down
        exact nothing before name ⟨behind, parts, busy, down, resting⟩
      rw [settings.path_of_idle whole idle parts busy resting, if_pos up]
  rw [same, Path.segments_intercalate (by simp) (settings.segments_start whole).2]

/-- The path does not tell the two names apart: their last names become the same one, or both are
idle and the extension goes to a name above them. -/
def Clash (settings : DumpSettings) (one other : String) : Prop :=
  (Path.isIdle (settings.lastName one) = false ∧ Path.isIdle (settings.lastName other) = false ∧
      Path.renamed (settings.lastName one) settings.extensionOrDefault =
        Path.renamed (settings.lastName other) settings.extensionOrDefault) ∨
    (Path.isIdle (settings.lastName one) = true ∧ Path.isIdle (settings.lastName other) = true ∧
      ∃ before name, settings.Carries before name)

variable {one other : String}

theorem path_eq_path_iff :
    settings.path one = settings.path other ↔
      Path.segments (settings.path one) = Path.segments (settings.path other) := by
  constructor
  · intro same
    rw [same]
  · intro same
    rw [← Path.intercalate_segments (settings.path one), same, Path.intercalate_segments]

theorem lastName_ne (settings : DumpSettings) (distinct : one ≠ other) :
    settings.lastName one ≠ settings.lastName other := by
  intro same
  apply distinct
  rw [← String.toList_inj] at same ⊢
  simpa [lastName] using same

theorem segments_ne_of_idle (one_whole : '/' ∉ one.toList) (other_whole : '/' ∉ other.toList)
    (plain : '/' ∉ settings.extensionOrDefault.toList)
    (idle : Path.isIdle (settings.lastName one) = true)
    (busy : Path.isIdle (settings.lastName other) = false) :
    Path.segments (settings.path one) ≠ Path.segments (settings.path other) := by
  rw [settings.segments_path_of_busy other_whole plain busy]
  by_cases carries : ∃ before name, settings.Carries before name
  · obtain ⟨before, name, carries⟩ := carries
    rw [settings.segments_path_of_carries one_whole plain idle carries]
    obtain ⟨behind, parts, -⟩ := carries
    intro same
    have := congrArg List.length same
    simp [parts] at this
  · rw [settings.segments_path_of_not_carries one_whole idle (by simpa using carries)]
    intro same
    have last : settings.lastName one =
        Path.renamed (settings.lastName other) settings.extensionOrDefault := by
      simpa using same
    rw [last, Path.isIdle_renamed busy] at idle
    cases idle

theorem path_eq_path_iff_clash (one_whole : '/' ∉ one.toList) (other_whole : '/' ∉ other.toList)
    (plain : '/' ∉ settings.extensionOrDefault.toList) (distinct : one ≠ other) :
    settings.path one = settings.path other ↔ settings.Clash one other := by
  -- An idle last name leaves the extension to what stands above it, so the two kinds of names
  -- never meet.
  rw [path_eq_path_iff]
  cases one_idle : Path.isIdle (settings.lastName one) <;>
    cases other_idle : Path.isIdle (settings.lastName other)
  · simp [segments_path_of_busy, Clash, *]
  · simpa [Clash, *]
      using (segments_ne_of_idle other_whole one_whole plain other_idle one_idle).symm
  · simpa [Clash, *] using segments_ne_of_idle one_whole other_whole plain one_idle other_idle
  · by_cases carries : ∃ before name, settings.Carries before name
    · obtain ⟨before, name, bears⟩ := id carries
      rw [segments_path_of_carries one_whole plain one_idle bears,
        segments_path_of_carries other_whole plain other_idle bears]
      simp [Clash, *]
    · have nothing : ∀ before name, ¬ settings.Carries before name := by simpa using carries
      simp [Clash, segments_path_of_not_carries, settings.lastName_ne distinct, *]

/-- A dump that is opened has the names that its path alone gives. -/
theorem file_of_create {files after : Files} {here : List String} {dump : Dump}
    (created : Dump.create settings files here thread = .ok (some dump, after)) :
    ∃ before last, Path.segments (settings.path thread) = before ++ [last] ∧
      Path.isIdle last = false ∧ dump.file = Files.lead here before ++ [last] := by
  obtain ⟨-, -, ready, -, opened⟩ := Dump.create_eq created
  exact (Files.of_makeFile opened).2

theorem file_of_busy (whole : '/' ∉ thread.toList) {files after : Files} {here : List String}
    {dump : Dump} (created : Dump.create settings files here thread = .ok (some dump, after))
    (busy : Path.isIdle (settings.lastName thread) = false) :
    dump.file = Files.lead here settings.above ++
      [Path.renamed (settings.lastName thread) settings.extensionOrDefault] := by
  obtain ⟨plain, -⟩ := Dump.create_eq created
  obtain ⟨before, last, parts, -, file⟩ := file_of_create created
  rw [segments_path_of_busy whole plain busy] at parts
  have ends := List.append_inj' parts (by simp)
  rw [file, ← ends.1, ← List.singleton_inj.mp ends.2]

/-- No file has a path that ends with an idle segment. -/
theorem exists_carries (whole : '/' ∉ thread.toList) {files after : Files} {here : List String}
    {dump : Dump} (created : Dump.create settings files here thread = .ok (some dump, after))
    (idle : Path.isIdle (settings.lastName thread) = true) :
    ∃ before name, settings.Carries before name := by
  obtain ⟨before, last, parts, named, -⟩ := file_of_create created
  by_contra nothing
  rw [segments_path_of_not_carries whole idle (by simpa using nothing)] at parts
  have ends := List.append_inj' parts (by simp)
  rw [← List.singleton_inj.mp ends.2, idle] at named
  cases named

theorem file_of_carries (whole : '/' ∉ thread.toList) {files after : Files} {here : List String}
    {dump : Dump} (created : Dump.create settings files here thread = .ok (some dump, after))
    (idle : Path.isIdle (settings.lastName thread) = true) {before : List String} {name : String}
    (carries : settings.Carries before name) :
    dump.file = Files.lead here before ++ [Path.extended name settings.extensionOrDefault] := by
  obtain ⟨plain, -⟩ := Dump.create_eq created
  obtain ⟨above, last, parts, -, file⟩ := file_of_create created
  rw [segments_path_of_carries whole plain idle carries] at parts
  have ends := List.append_inj' parts (by simp)
  rw [file, ← ends.1, ← List.singleton_inj.mp ends.2]

theorem file_ne_of_idle (one_whole : '/' ∉ one.toList) (other_whole : '/' ∉ other.toList)
    {files files' after after' : Files} {here : List String} {dump dump' : Dump}
    (created : Dump.create settings files here one = .ok (some dump, after))
    (created' : Dump.create settings files' here other = .ok (some dump', after'))
    (idle : Path.isIdle (settings.lastName one) = true)
    (busy : Path.isIdle (settings.lastName other) = false) :
    dump.file ≠ dump'.file := by
  obtain ⟨before, name, carries⟩ := exists_carries one_whole created idle
  obtain ⟨behind, parts, named, up, resting⟩ := id carries
  rw [file_of_carries one_whole created idle carries, file_of_busy other_whole created' busy, parts,
    Files.lead_append here before (by simp [named]) up resting]
  -- The one file lies beside the folder that the other one lies in.
  intro same
  have := congrArg List.length same
  simp at this

theorem file_eq_file_iff_clash (one_whole : '/' ∉ one.toList) (other_whole : '/' ∉ other.toList)
    {files files' after after' : Files} {here : List String} {dump dump' : Dump}
    (created : Dump.create settings files here one = .ok (some dump, after))
    (created' : Dump.create settings files' here other = .ok (some dump', after')) :
    dump.file = dump'.file ↔ settings.Clash one other := by
  cases one_idle : Path.isIdle (settings.lastName one) <;>
    cases other_idle : Path.isIdle (settings.lastName other)
  · rw [file_of_busy one_whole created one_idle, file_of_busy other_whole created' other_idle]
    simp [Clash, *]
  · simpa [Clash, *]
      using (file_ne_of_idle other_whole one_whole created' created other_idle one_idle).symm
  · simpa [Clash, *]
      using file_ne_of_idle one_whole other_whole created created' one_idle other_idle
  · have carries := exists_carries one_whole created one_idle
    obtain ⟨before, name, bears⟩ := id carries
    rw [file_of_carries one_whole created one_idle bears,
      file_of_carries other_whole created' other_idle bears]
    simp [Clash, *]

/-- Names without a dot are told apart. -/
theorem not_clash_of_dotless (distinct : one ≠ other)
    (one_dotless : '.' ∉ (settings.lastName one).toList)
    (other_dotless : '.' ∉ (settings.lastName other).toList) : ¬ settings.Clash one other := by
  have own (name : String) (dotless : '.' ∉ name.toList) : Path.stem name = name := by
    rcases Path.stem_cases name with own | ⟨ending, -, -, parts⟩
    · exact own
    · rw [parts] at dotless
      simp at dotless
  have names := settings.lastName_ne distinct
  rintro (⟨-, -, same⟩ | ⟨one_idle, other_idle, -⟩)
  · have dot (name : String) (dotless : '.' ∉ name.toList) : name ≠ "." := by
      rintro rfl
      exact dotless (by decide)
    rw [Path.renamed, Path.renamed, own _ one_dotless, own _ other_dotless,
      if_neg (dot _ one_dotless), if_neg (dot _ other_dotless), Path.extended, Path.extended,
      own _ one_dotless, own _ other_dotless, ← String.toList_inj, String.toList_append,
      String.toList_append, List.append_left_inj, String.toList_inj] at same
    exact names same
  · have empty (name : String) (dotless : '.' ∉ name.toList)
        (idle : Path.isIdle name = true) : name = "" := by
      have : name = "" ∨ name = "." := by simpa [Path.isIdle] using idle
      rcases this with rfl | rfl
      · rfl
      · exact absurd (by decide) dotless
    exact names ((empty _ one_dotless one_idle).trans (empty _ other_dotless other_idle).symm)

/-- Two threads with different names get one path exactly if their names clash, and exactly then
their dumps, if both are opened, are one file, whatever folder the program runs in and whatever the
tree of files was when each of them was opened. Names without a dot do not clash. -/
theorem shares_dump_iff (settings : DumpSettings)
    (plain : '/' ∉ settings.extensionOrDefault.toList) (one other : String)
    (one_whole : '/' ∉ one.toList) (other_whole : '/' ∉ other.toList) (distinct : one ≠ other) :
    (settings.path one = settings.path other ↔ settings.Clash one other) ∧
      (∀ here files files' after after' dump dump',
        Dump.create settings files here one = .ok (some dump, after) →
        Dump.create settings files' here other = .ok (some dump', after') →
        (dump.file = dump'.file ↔ settings.Clash one other)) ∧
      ('.' ∉ (settings.lastName one).toList → '.' ∉ (settings.lastName other).toList →
        ¬ settings.Clash one other) :=
  ⟨path_eq_path_iff_clash one_whole other_whole plain distinct,
    fun _ _ _ _ _ _ _ created created' =>
      file_eq_file_iff_clash one_whole other_whole created created',
    not_clash_of_dotless distinct⟩

/-- The part of a name behind its last dot does not get into the path. -/
theorem path_loses_ending :
    "w.1" ≠ "w.2" ∧ '/' ∉ "w.1".toList ∧ '/' ∉ "w.2".toList ∧
      ({} : DumpSettings).path "w.1" = ({} : DumpSettings).path "w.2" := by
  decide +kernel

theorem shares_dump_iff_worker :
    ({} : DumpSettings).Clash "w.1" "w.2" ∧
    ({} : DumpSettings).path "w.1" = ({} : DumpSettings).path "w.2" ∧
      ({} : DumpSettings).path "w1" ≠ ({} : DumpSettings).path "w2" := by
  have dotted :=
    shares_dump_iff {} (by decide +kernel) "w.1" "w.2" (by decide) (by decide) (by decide)
  have plain := shares_dump_iff {} (by decide +kernel) "w1" "w2" (by decide) (by decide) (by decide)
  have clash : ({} : DumpSettings).Clash "w.1" "w.2" := .inl (by decide +kernel)
  have apart : ¬ ({} : DumpSettings).Clash "w1" "w2" :=
    plain.2.2 (by decide +kernel) (by decide +kernel)
  exact ⟨clash, dotted.1.mpr clash, fun same => apart (plain.1.mp same)⟩

end DumpSettings

end ShadowTrace
