import ShadowTrace.Trace.Dump

/-! # What is done to a tree of files

A path says by itself which file it leads to: the tree can stand in its way, but not lead it
elsewhere. Making folders takes no file away, making a file empties that file alone, and writing at
the end of a file appends to it. -/

namespace ShadowTrace

namespace Files

/-! ## Nodes -/

theorem lookup_replace (names other : List String) (node : Node)
    (nodes : List (List String × Node)) :
    (replace names node nodes).lookup other = if other = names then some node
      else nodes.lookup other := by
  induction nodes with
  | nil =>
    by_cases same : other = names
    · simp [replace, same]
    · simp [replace, List.lookup_cons, same, beq_false_of_ne same]
  | cons entry nodes ih =>
    obtain ⟨here, old⟩ := entry
    simp only [replace]
    split
    next found =>
      subst found
      by_cases same : other = here
      · simp [same]
      · simp [List.lookup_cons, same, beq_false_of_ne same]
    next missing =>
      simp only [List.lookup_cons, ih]
      by_cases same : other = names
      · simp [same, beq_false_of_ne (Ne.symm missing)]
      · simp [same]

theorem node?_put (files : Files) {names : List String} (inner : names ≠ []) (node : Node)
    (other : List String) :
    (files.put names node).node? other = if other = names then some node
      else files.node? other := by
  unfold node? put
  by_cases root : other = []
  · simp [root, Ne.symm inner]
  · simp [root, lookup_replace]

/-- Every file of the tree is still there, as it was. -/
def KeepsFiles (files after : Files) : Prop :=
  ∀ names content, files.node? names = some (.file content) →
    after.node? names = some (.file content)

theorem KeepsFiles.refl (files : Files) : files.KeepsFiles files := fun _ _ => id

theorem KeepsFiles.trans {files middle after : Files} (first : files.KeepsFiles middle)
    (second : middle.KeepsFiles after) :
    files.KeepsFiles after :=
  fun names content there => second names content (first names content there)

/-! ## Making folders -/

theorem node?_of_missing {files : Files} {here : List String} {segment : String}
    (missing : files.descend here segment = .error .missing) :
    files.node? (here ++ [segment]) = none := by
  unfold descend at missing
  split at missing
  · cases missing
  · split at missing
    · cases missing
    · split at missing
      · cases missing
      · split at missing
        · cases missing
        · cases missing
        next absent => exact absent

/-- What making a folder comes to: it is there, or it was missing in a folder that is there. -/
theorem makeFolder_eq_ok {files after : Files} {here segments : List String}
    (made : files.makeFolder here segments = .ok after) :
    (∃ folder, files.follow here segments.dropLast = .ok folder) ∧
      (after = files ∨ ∃ folder name, files.follow here segments.dropLast = .ok folder ∧
        segments.getLast? = some name ∧ files.descend folder name = .error .missing ∧
        after = files.put (folder ++ [name]) .folder) := by
  simp only [makeFolder, bind, Except.bind] at made
  cases followed : files.follow here segments.dropLast with
  | error obstacle => simp [followed] at made
  | ok folder =>
    refine ⟨⟨folder, rfl⟩, ?_⟩
    simp only [followed] at made
    cases last : segments.getLast? with
    | none =>
      simp only [last, pure, Except.pure, Except.ok.injEq] at made
      exact .inl made.symm
    | some name =>
      simp only [last] at made
      cases there : files.descend folder name with
      | ok =>
        simp only [there, pure, Except.pure, Except.ok.injEq] at made
        exact .inl made.symm
      | error obstacle =>
        cases obstacle with
        | blocked => simp [there] at made
        | missing =>
          simp only [there, pure, Except.pure, Except.ok.injEq] at made
          exact .inr ⟨folder, name, rfl, rfl, there, made.symm⟩

theorem keepsFiles_makeFolder {files after : Files} {here segments : List String}
    (made : files.makeFolder here segments = .ok after) : files.KeepsFiles after := by
  obtain ⟨-, rfl | ⟨folder, name, -, -, missing, rfl⟩⟩ := makeFolder_eq_ok made
  · exact KeepsFiles.refl _
  · -- The new folder is where nothing was, so it is not where a file is.
    intro names content file
    have apart : names ≠ folder ++ [name] := by
      rintro rfl
      rw [node?_of_missing missing] at file
      cases file
    rw [node?_put _ (by simp), if_neg apart, file]

theorem keepsFiles_makeFirst (files : Files) (here : List String) (paths : List (List String)) :
    files.KeepsFiles (files.makeFirst here paths).1 := by
  induction paths with
  | nil => exact KeepsFiles.refl files
  | cons segments above ih =>
    rw [makeFirst]
    split
    next made => exact keepsFiles_makeFolder made
    · exact KeepsFiles.refl files
    · split
      next stopped => rwa [stopped] at ih
      next ready =>
        rw [ready] at ih
        split
        next made => exact ih.trans (keepsFiles_makeFolder made)
        · exact ih

theorem keepsFiles_makeFolders (files : Files) (here : List String) (path : String) :
    files.KeepsFiles (files.makeFolders here path).1 := by
  unfold makeFolders
  split
  · exact keepsFiles_makeFirst files _ _
  · exact KeepsFiles.refl files

/-! ## Following a path -/

/-- Where segments lead if nothing stands in the way. -/
def walk (here : List String) : List String → List String
  | [] => here
  | segment :: rest =>
    if Path.isIdle segment then walk here rest
    else if segment = ".." then walk here.dropLast rest
    else walk (here ++ [segment]) rest

theorem walk_append (here first rest : List String) :
    walk here (first ++ rest) = walk (walk here first) rest := by
  induction first generalizing here with
  | nil => rfl
  | cons segment first ih =>
    simp only [List.cons_append, walk, ih]
    split
    · rfl
    · split <;> rfl

theorem walk_idle {segments : List String} (idle : ∀ segment ∈ segments, Path.isIdle segment = true)
    (here : List String) : walk here segments = here := by
  induction segments with
  | nil => rfl
  | cons segment segments ih =>
    rw [walk, if_pos (idle segment (by simp))]
    exact ih fun segment member => idle segment (by simp [member])

theorem walk_of_descend {files : Files} {here inner : List String} {segment : String}
    (next : files.descend here segment = .ok inner) (rest : List String) :
    walk here (segment :: rest) = walk inner rest := by
  unfold descend at next
  rw [walk]
  split at next
  next idle => simp_all
  next busy =>
    split at next
    next up => simp_all
    next down =>
      split at next
      · cases next
      · split at next <;> simp_all

theorem follow_eq_walk {files : Files} {here segments folder : List String}
    (followed : files.follow here segments = .ok folder) : folder = walk here segments := by
  induction segments generalizing here with
  | nil =>
    cases followed
    rfl
  | cons segment segments ih =>
    rw [follow] at followed
    cases next : files.descend here segment with
    | error obstacle => simp [next] at followed
    | ok inner =>
      simp only [next] at followed
      rw [walk_of_descend next, ih followed]

/-- Where the folders in front of the last name of a path lead, as seen from the given folder. Those
of an absolute path begin with an empty segment. -/
def lead (folder before : List String) : List String :=
  walk (if before.head? = some "" then [] else folder) before

/-- A named folder, and idle segments behind it. -/
theorem lead_append (folder before : List String) {name : String} {behind : List String}
    (busy : ¬ Path.isIdle name = true) (down : name ≠ "..")
    (idle : ∀ segment ∈ behind, Path.isIdle segment = true) :
    lead folder (before ++ name :: behind) = lead folder before ++ [name] := by
  have first : (before ++ name :: behind).head? = some "" ↔ before.head? = some "" := by
    cases before with
    | nil => simpa using fun empty : name = "" => busy (by simp [Path.isIdle, empty])
    | cons segment before => simp
  simp only [lead, first]
  rw [walk_append, walk, if_neg busy, if_neg down, walk_idle idle]

theorem isAbsolute_iff {path : String} {before : List String} {last : String}
    (parts : Path.segments path = before ++ [last]) :
    Path.isAbsolute path = true ↔ before.head? = some "" := by
  simp only [Path.segments, Text.split] at parts
  simp only [Path.isAbsolute, decide_eq_true_iff]
  cases chars : path.toList with
  | nil =>
    rw [chars] at parts
    cases before with
    | nil => simp
    | cons first before => simp [Text.splitChars] at parts
  | cons c rest =>
    obtain ⟨first, others, inner⟩ :=
      List.exists_cons_of_ne_nil (Text.splitChars_ne_nil '/' rest)
    rw [chars, Text.splitChars, inner] at parts
    split at parts
    next slash =>
      -- The slash ends an empty segment, and another one follows.
      obtain ⟨segment, before, rfl⟩ : ∃ segment more, before = segment :: more := by
        cases before with
        | nil => simp at parts
        | cons segment more => exact ⟨segment, more, rfl⟩
      simp only [List.map_cons, List.cons_append, List.cons.injEq] at parts
      simp [slash, ← parts.1]
    next other =>
      cases before with
      | nil => simpa using other
      | cons segment before =>
        simp only [List.map_cons, List.cons_append, List.cons.injEq] at parts
        have something : segment ≠ "" := by
          rw [← parts.1, ne_eq, ← String.toList_inj]
          simp
        simp [other, something]

/-! ## Files -/

/-- Making a file empties it and changes nothing else; its names are those that the path
alone gives. -/
theorem of_makeFile {files made : Files} {here : List String} {path : String} {names : List String}
    (opened : files.makeFile here path = some (made, names)) :
    made = files.put names (.file .empty) ∧
      ∃ before last, Path.segments path = before ++ [last] ∧ Path.isIdle last = false ∧
        names = lead here before ++ [last] := by
  simp only [makeFile] at opened
  split at opened
  next folder last _ followed final =>
    split at opened
    · cases opened
    next free =>
      simp only [Option.some.injEq, Prod.mk.injEq] at opened
      obtain ⟨rfl, rfl⟩ := opened
      obtain ⟨before, parts⟩ := List.getLast?_eq_some_iff.mp final
      have seen : start here path = if before.head? = some "" then [] else here := by
        simp only [start, isAbsolute_iff parts]
      rw [parts, List.dropLast_concat, seen] at followed
      exact ⟨rfl, before, last, parts, by simp_all, by rw [follow_eq_walk followed, lead]⟩
  · cases opened

theorem overwrite_end (content bytes : ByteArray) :
    overwrite content content.size bytes = content ++ bytes := by
  have behind : content.extract (content.size + bytes.size) content.size = .empty := by
    simp
  have gap : ByteArray.mk (Array.replicate (content.size - content.size) 0) = .empty := by
    rw [Nat.sub_self]
    rfl
  rw [overwrite, behind, gap, ByteArray.extract_zero_size, ByteArray.append_empty,
    ByteArray.append_empty]

theorem node?_write_of_ne (files : Files) {names other : List String} (apart : other ≠ names)
    (offset : Nat) (bytes : ByteArray) :
    (files.write names offset bytes).node? other = files.node? other := by
  unfold write
  split
  next content there =>
    have inner : names ≠ [] := by
      rintro rfl
      simp [node?] at there
    rw [node?_put _ inner, if_neg apart]
  · rfl

theorem node?_write_end {files : Files} {names : List String} {content : ByteArray}
    (there : files.node? names = some (.file content)) (bytes : ByteArray) :
    (files.write names content.size bytes).node? names = some (.file (content ++ bytes)) := by
  have inner : names ≠ [] := by
    rintro rfl
    simp [node?] at there
  simp [write, there, node?_put _ inner, overwrite_end]

end Files

/-! ## Opening a dump -/

/-- A dump that is opened starts with an empty file of its own path. Whether or not there is one,
every other file stays as it is. -/
theorem Dump.create_eq {settings : DumpSettings} {files after : Files} {here : List String}
    {thread : String} {opened : Option Dump}
    (created : Dump.create settings files here thread = .ok (opened, after)) :
    match opened with
    | none => files.KeepsFiles after
    | some dump =>
      '/' ∉ settings.extensionOrDefault.toList ∧ dump = ⟨dump.file, settings.format, 0, 0⟩ ∧
        ∃ ready, files.KeepsFiles ready ∧
          ready.makeFile here (settings.path thread) = some (after, dump.file) := by
  have kept := files.keepsFiles_makeFolders here settings.folder
  unfold create at created
  split at created
  next folders stopped =>
    cases created
    rwa [stopped] at kept
  next folders made =>
    rw [made] at kept
    split at created
    · cases created
    next plain =>
      split at created
      · cases created
        exact kept
      next file opened =>
        cases created
        exact ⟨by simpa using plain, rfl, folders, kept, opened⟩

end ShadowTrace
