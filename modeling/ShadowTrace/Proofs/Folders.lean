import Mathlib.Data.List.Range
import ShadowTrace.Proofs.FileTree

/-! # Whether folders can be made

A folder that could be made is there, so it can be made again. One that could not be made cannot be
made later either, however often that is tried: the folders that were made above it stand in
nobody's way, and what stood in the way still does. Nor does it matter what is written to files. -/

namespace ShadowTrace.Files

/-! ## Making folders again -/

theorem descend_congr {files other : Files} {here : List String} {segment : String}
    (same : (files.node? (here ++ [segment])).map Node.isFolder =
      (other.node? (here ++ [segment])).map Node.isFolder) :
    files.descend here segment = other.descend here segment := by
  unfold descend
  cases here' : files.node? (here ++ [segment]) with
  | none =>
    cases there : other.node? (here ++ [segment]) with
    | none => rfl
    | some node => simp [here', there] at same
  | some node =>
    cases there : other.node? (here ++ [segment]) with
    | none => simp [here', there] at same
    | some node' => cases node <;> cases node' <;> simp_all [Node.isFolder]

theorem descend_put {files : Files} {names here inner : List String} {segment : String}
    (absent : files.node? names = none) (next : files.descend here segment = .ok inner) :
    (files.put names .folder).descend here segment = .ok inner := by
  have some_name : names ≠ [] := by
    rintro rfl
    simp [node?] at absent
  by_cases same : here ++ [segment] = names
  · -- Nothing is there, so the segment is one that names nothing.
    simp only [descend, same, absent] at next
    unfold descend
    split
    next idle => simpa [idle] using next
    next busy =>
      split
      next up =>
        rw [if_neg busy, if_pos up] at next
        exact next
      next down =>
        simp only [busy, down, Bool.false_eq_true, if_false] at next
        split at next <;> cases next
  · rw [← next]
    exact descend_congr (by rw [node?_put _ some_name, if_neg same])

/-- A new folder is in nobody's way. -/
theorem follow_put {files : Files} {names here folder segments : List String}
    (absent : files.node? names = none) (followed : files.follow here segments = .ok folder) :
    (files.put names .folder).follow here segments = .ok folder := by
  induction segments generalizing here with
  | nil => exact followed
  | cons segment segments ih =>
    rw [follow] at followed ⊢
    cases next : files.descend here segment with
    | error obstacle => simp [next] at followed
    | ok inner =>
      simp only [next] at followed
      simp only [descend_put absent next]
      exact ih followed

theorem follow_append (files : Files) (here first rest : List String) :
    files.follow here (first ++ rest) =
      (files.follow here first).bind fun folder => files.follow folder rest := by
  induction first generalizing here with
  | nil => rfl
  | cons segment first ih =>
    rw [List.cons_append, follow, follow]
    cases files.descend here segment with
    | error obstacle => rfl
    | ok inner => exact ih inner

/-- The folder that segments lead to need not be made. -/
theorem makeFolder_of_follow {files : Files} {here segments folder : List String}
    (followed : files.follow here segments = .ok folder) :
    files.makeFolder here segments = .ok files := by
  cases last : segments.getLast? with
  | none =>
    obtain rfl := List.getLast?_eq_none_iff.mp last
    rfl
  | some name =>
    obtain ⟨before, rfl⟩ := List.getLast?_eq_some_iff.mp last
    rw [follow_append] at followed
    cases above : files.follow here before with
    | error obstacle => simp [above, Except.bind] at followed
    | ok inner =>
      simp only [above, Except.bind, follow] at followed
      cases next : files.descend inner name with
      | error obstacle => simp [next] at followed
      | ok found => simp [makeFolder, above, next, bind, Except.bind, pure, Except.pure]

theorem makeFolder_again {files after : Files} {here segments : List String}
    (made : files.makeFolder here segments = .ok after) :
    after.makeFolder here segments = .ok after := by
  obtain ⟨-, rfl | ⟨folder, name, followed, last, missing, rfl⟩⟩ := makeFolder_eq_ok made
  · exact made
  · obtain ⟨before, rfl⟩ := List.getLast?_eq_some_iff.mp last
    have absent := node?_of_missing missing
    rw [List.dropLast_concat] at followed
    -- The name names something, and that is there now.
    have there : (files.put (folder ++ [name]) .folder).descend folder name =
        .ok (folder ++ [name]) := by
      unfold descend at missing ⊢
      rw [node?_put _ (by simp), if_pos rfl]
      split at missing
      · cases missing
      next busy =>
        split at missing
        · cases missing
        next down =>
          split at missing
          · cases missing
          next fits => simp [busy, down, fits]
    have again : (files.put (folder ++ [name]) .folder).follow here (before ++ [name]) =
        .ok (folder ++ [name]) := by
      rw [follow_append, follow_put absent followed]
      simp only [Except.bind, follow, there]
    exact makeFolder_of_follow again

theorem makeFirst_again {files after : Files} {here : List String} {paths : List (List String)}
    (made : files.makeFirst here paths = (after, true)) :
    after.makeFirst here paths = (after, true) := by
  cases paths with
  | nil => rfl
  | cons segments above =>
    -- Whichever way it was made, the last thing that was done is making this folder.
    have last : ∃ before : Files, before.makeFolder here segments = .ok after := by
      rw [makeFirst] at made
      split at made
      next first =>
        cases made
        exact ⟨_, first⟩
      · cases made
      · split at made
        · cases made
        · split at made
          next second =>
            cases made
            exact ⟨_, second⟩
          · cases made
    obtain ⟨before, done⟩ := last
    rw [makeFirst, makeFolder_again done]

/-- On the way to where the first segments lead, the second ones lead somewhere. -/
def Above (here : List String) (segments next : List String) : Prop :=
  ∀ (files : Files) (folder : List String), files.follow here segments.dropLast = .ok folder →
    ∃ inner, files.follow here next = .ok inner

theorem makeFirst_fails_again {here : List String} {paths : List (List String)}
    (chain : paths.IsChain (Above here)) {files after : Files}
    (failed : files.makeFirst here paths = (after, false)) :
    (after.makeFirst here paths).2 = false := by
  induction paths generalizing files with
  | nil => cases failed
  | cons segments above ih =>
    rw [makeFirst] at failed
    split at failed
    · cases failed
    next blocked =>
      cases failed
      rw [makeFirst, blocked]
    next missing =>
      split at failed
      next stopped =>
        cases failed
        -- Those above still cannot be made, so there is nothing to make this one in.
        have again := ih chain.tail stopped
        cases above with
        | nil => cases again
        | cons next rest =>
          rw [makeFirst]
          cases made : after.makeFolder here segments with
          | ok done =>
            obtain ⟨⟨folder, followed⟩, -⟩ := makeFolder_eq_ok made
            obtain ⟨inner, there⟩ := chain.rel after folder followed
            rw [makeFirst, makeFolder_of_follow there] at again
            cases again
          | error obstacle =>
            cases obstacle with
            | blocked => rfl
            | missing =>
              simp only
              generalize after.makeFirst here (next :: rest) = outcome at again ⊢
              obtain ⟨files, result⟩ := outcome
              cases again
              rfl
      next ready =>
        split at failed
        · cases failed
        next obstacle refused =>
          cases failed
          rw [makeFirst, refused]
          cases obstacle with
          | blocked => rfl
          | missing => simp only [makeFirst_again ready, refused]

theorem follow_filter (files : Files) (here segments : List String) :
    files.follow here (segments.filter fun segment => !Path.isIdle segment) =
      files.follow here segments := by
  induction segments generalizing here with
  | nil => rfl
  | cons segment segments ih =>
    cases idle : Path.isIdle segment with
    | true =>
      have stays : files.descend here segment = .ok here := by simp [descend, idle]
      rw [List.filter_cons_of_neg (by simp [idle]), ih, follow, stays]
    | false =>
      rw [List.filter_cons_of_pos (by simp [idle]), follow, follow]
      cases files.descend here segment with
      | error obstacle => rfl
      | ok inner => exact ih inner

theorem follow_dropLast {files : Files} {here segments folder : List String}
    (followed : files.follow here segments = .ok folder) :
    ∃ inner, files.follow here segments.dropLast = .ok inner := by
  rcases List.eq_nil_or_concat' segments with rfl | ⟨before, last, rfl⟩
  · exact ⟨here, rfl⟩
  · rw [follow_append] at followed
    rw [List.dropLast_concat]
    cases above : files.follow here before with
    | error obstacle => simp [above, Except.bind] at followed
    | ok inner => exact ⟨inner, rfl⟩

theorem filter_untrailed (path : String) :
    (Path.untrailed path).filter (fun segment => !Path.isIdle segment) = Path.components path := by
  have idle (segments : List String) :
      (segments.dropWhile (· = "")).filter (fun segment => !Path.isIdle segment) =
        segments.filter fun segment => !Path.isIdle segment := by
    induction segments with
    | nil => rfl
    | cons segment segments ih =>
      by_cases empty : segment = ""
      · subst empty
        exact ih
      · simp [empty]
  rw [Path.untrailed, List.filter_reverse, idle, ← List.filter_reverse, List.reverse_reverse,
    Path.components]

theorem isChain_ancestors (here segments : List String) :
    (Path.ancestors segments).IsChain (Above here) := by
  rw [Path.ancestors, List.isChain_map, List.isChain_range]
  intro up inside files folder followed
  have shorter : (segments.take (segments.length - up)).dropLast =
      segments.take (segments.length - up.succ) := by
    rw [List.dropLast_eq_take, List.take_take, List.length_take]
    congr 1
    omega
  exact ⟨folder, shorter ▸ followed⟩

theorem isChain_foldersOf (here : List String) (path : String) :
    (foldersOf path).IsChain (Above here) := by
  have onward := isChain_ancestors here (Path.components path).dropLast
  have first : Above here (Path.untrailed path) (Path.components path).dropLast := by
    intro files folder followed
    rcases List.eq_nil_or_concat' (Path.untrailed path) with nothing | ⟨before, last, parts⟩
    · rw [← filter_untrailed, nothing]
      exact ⟨here, rfl⟩
    · rw [← filter_untrailed, parts, List.filter_append]
      rw [parts, List.dropLast_concat, ← follow_filter] at followed
      cases idle : Path.isIdle last with
      | true =>
        rw [List.filter_cons_of_neg (by simp [idle]), List.filter_nil, List.append_nil]
        exact follow_dropLast followed
      | false =>
        rw [List.filter_cons_of_pos (by simp [idle]), List.filter_nil, List.dropLast_concat]
        exact ⟨folder, followed⟩
  have head (segments : List String) :
      Path.ancestors segments = segments :: (Path.ancestors segments).tail := by
    simp [Path.ancestors, List.range_succ_eq_map]
  rw [foldersOf, head, List.isChain_cons_cons, ← head]
  exact ⟨first, onward⟩

/-- Whether folders can be made does not change when that is tried. -/
theorem makeFolders_again (files : Files) (here : List String) (path : String) :
    ((files.makeFolders here path).1.makeFolders here path).2 =
      (files.makeFolders here path).2 := by
  unfold makeFolders
  split
  · generalize outcome : files.makeFirst (start here path) (foldersOf path) = made
    obtain ⟨after, _ | _⟩ := made
    · exact makeFirst_fails_again (isChain_foldersOf _ path) outcome
    · rw [makeFirst_again outcome]
  · rfl

/-! ## Contents do not matter -/

/-- There are folders and files at the same places. -/
def SameShape (files other : Files) : Prop :=
  ∀ names, (files.node? names).map Node.isFolder = (other.node? names).map Node.isFolder

namespace SameShape

variable {files other : Files}

theorem follow (same : files.SameShape other) (here segments : List String) :
    files.follow here segments = other.follow here segments := by
  induction segments generalizing here with
  | nil => rfl
  | cons segment segments ih =>
    rw [Files.follow, Files.follow, descend_congr (same _)]
    cases other.descend here segment with
    | error obstacle => rfl
    | ok inner => exact ih inner

theorem put (same : files.SameShape other) {names : List String} (inner : names ≠ [])
    (node : Node) :
    (files.put names node).SameShape (other.put names node) := by
  intro name
  rw [node?_put _ inner, node?_put _ inner]
  split
  · rfl
  · exact same name

theorem makeFolder (same : files.SameShape other) (here segments : List String) :
    (∃ obstacle, files.makeFolder here segments = .error obstacle ∧
        other.makeFolder here segments = .error obstacle) ∨
      ∃ made made', files.makeFolder here segments = .ok made ∧
        other.makeFolder here segments = .ok made' ∧ made.SameShape made' := by
  simp only [Files.makeFolder, bind, Except.bind, same.follow]
  cases other.follow here segments.dropLast with
  | error obstacle => exact .inl ⟨obstacle, rfl, rfl⟩
  | ok folder =>
    cases segments.getLast? with
    | none => exact .inr ⟨files, other, rfl, rfl, same⟩
    | some name =>
      simp only [descend_congr (same _)]
      cases other.descend folder name with
      | ok => exact .inr ⟨files, other, rfl, rfl, same⟩
      | error obstacle =>
        cases obstacle with
        | blocked => exact .inl ⟨.blocked, rfl, rfl⟩
        | missing => exact .inr ⟨_, _, rfl, rfl, same.put (by simp) .folder⟩

theorem makeFirst (same : files.SameShape other) (here : List String) (paths : List (List String)) :
    (files.makeFirst here paths).1.SameShape (other.makeFirst here paths).1 ∧
      (files.makeFirst here paths).2 = (other.makeFirst here paths).2 := by
  induction paths with
  | nil => exact ⟨same, rfl⟩
  | cons segments above ih =>
    rw [Files.makeFirst, Files.makeFirst]
    rcases same.makeFolder here segments with ⟨obstacle, mine, yours⟩
      | ⟨made, made', mine, yours, again⟩
    · rw [mine, yours]
      cases obstacle with
      | blocked => exact ⟨same, rfl⟩
      | missing =>
        simp only
        generalize files.makeFirst here above = one, other.makeFirst here above = two at ih ⊢
        obtain ⟨one, ready⟩ := one
        obtain ⟨two, ready'⟩ := two
        obtain ⟨alike, rfl⟩ := ih
        cases ready with
        | false => exact ⟨alike, rfl⟩
        | true =>
          rcases alike.makeFolder here segments with
            ⟨obstacle, mine, yours⟩ | ⟨made, made', mine, yours, again⟩
          · simp only [mine, yours]
            exact ⟨alike, trivial⟩
          · simp only [mine, yours]
            exact ⟨again, trivial⟩
    · rw [mine, yours]
      exact ⟨again, rfl⟩

theorem makeFolders (same : files.SameShape other) (here : List String) (path : String) :
    (files.makeFolders here path).2 = (other.makeFolders here path).2 := by
  unfold Files.makeFolders
  split
  · exact (same.makeFirst _ _).2
  · rfl

end SameShape

theorem sameShape_write (files : Files) (names : List String) (offset : Nat) (bytes : ByteArray) :
    (files.write names offset bytes).SameShape files := by
  intro other
  by_cases same : other = names
  · subst same
    unfold write
    split
    next content there =>
      have inner : other ≠ [] := by
        rintro rfl
        simp [node?] at there
      rw [node?_put _ inner, if_pos rfl, there]
      rfl
    · rfl
  · rw [node?_write_of_ne _ same]

end ShadowTrace.Files
