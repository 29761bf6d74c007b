import Mathlib.Data.List.Infix
import ShadowTrace.Proofs.Documents

/-! # The nearest document

The search goes upwards and stops at the first folder with an entry whose name starts as that of a
document does. A document is looked for in this folder alone. So the nearest document is used if no
nearer folder has such an entry; a backup, a note or a folder of such a name hides all documents
further up, and then no document is used. -/

namespace ShadowTrace

/-! ## Searching upwards -/

namespace Path

theorem mem_ancestors {folder here : List String} : folder ∈ ancestors here ↔ folder <+: here := by
  simp only [ancestors, List.mem_map, List.mem_range]
  constructor
  · rintro ⟨up, -, rfl⟩
    exact List.take_prefix _ _
  · intro above
    refine ⟨here.length - folder.length, by omega, ?_⟩
    have shorter := above.length_le
    rw [Nat.sub_sub_self shorter]
    exact (List.prefix_iff_eq_take.mp above).symm

/-- The longest come first. -/
theorem pairwise_ancestors (here : List String) :
    (ancestors here).Pairwise fun nearer folder => folder.length < nearer.length := by
  rw [ancestors, List.pairwise_map]
  refine List.Pairwise.imp_of_mem ?_ List.pairwise_lt_range
  intro up further inside inside' before
  simp only [List.mem_range] at inside inside'
  simp only [List.length_take]
  omega

/-- What is found by searching upwards passes the test, and nothing nearer does. -/
theorem find?_ancestors_iff {here folder : List String} {test : List String → Bool} :
    (ancestors here).find? test = some folder ↔
      folder <+: here ∧ test folder = true ∧
        ∀ nearer, nearer <+: here → folder.length < nearer.length → test nearer = false := by
  rw [List.find?_eq_some_iff_append]
  have longest := pairwise_ancestors here
  constructor
  · rintro ⟨passes, before, after, parts, fails⟩
    rw [parts, List.pairwise_append, List.pairwise_cons] at longest
    refine ⟨mem_ancestors.mp (by simp [parts]), passes, ?_⟩
    intro nearer above longer
    have member := mem_ancestors.mpr above
    rw [parts, List.mem_append, List.mem_cons] at member
    -- It is longer, so it comes before.
    rcases member with earlier | rfl | later
    · simpa using fails nearer earlier
    · omega
    · have := longest.2.1.1 nearer later
      omega
  · rintro ⟨above, passes, fails⟩
    obtain ⟨before, after, parts⟩ := List.append_of_mem (mem_ancestors.mpr above)
    refine ⟨passes, before, after, parts, ?_⟩
    intro nearer earlier
    rw [parts, List.pairwise_append] at longest
    have member : nearer ∈ ancestors here := by simp [parts, earlier]
    simpa using fails nearer (mem_ancestors.mp member) (longest.2.2 nearer earlier folder (by simp))

end Path

namespace Files

theorem mem_nodes_of_node? {files : Files} {folder : List String} {name : String} {node : Node}
    (there : files.node? (folder ++ [name]) = some node) :
    (folder ++ [name], node) ∈ files.nodes := by
  rw [node?, if_neg (by simp)] at there
  obtain ⟨before, after, parts, -⟩ := List.lookup_eq_some_iff.mp there
  simp [parts]

theorem mem_children {files : Files} {folder : List String} {name : String} :
    name ∈ files.children folder ↔ files.node? (folder ++ [name]) ≠ none := by
  have inner : folder ++ [name] ≠ [] := by simp
  rw [node?, if_neg inner, Option.ne_none_iff_isSome, List.lookup_isSome_iff, children,
    List.mem_filterMap]
  refine exists_congr fun entry => and_congr_right fun _ => ?_
  obtain ⟨names, node⟩ := entry
  simp only [beq_iff_eq]
  constructor
  · intro last
    split at last
    next inside => rw [← inside, List.dropLast_append_getLast? name last]
    · cases last
  · rintro rfl
    simp

theorem holds_iff {files : Files} {start : String} {folder : List String} :
    files.holds start folder = true ↔
      ∃ name, startsWith start name = true ∧ files.node? (folder ++ [name]) ≠ none := by
  simp only [holds, List.any_eq_true, mem_children]
  exact exists_congr fun name => and_comm

end Files

theorem Surroundings.mem_markups (here : Surroundings) (markup : Markup) :
    markup ∈ here.arrangement.markups := by
  rw [here.arrangement.markups_perm.mem_iff]
  cases markup <;> decide

namespace Settings

/-! ## Documents -/

/-- The name of a document. -/
def documentName (extension : String) : String := fileName ++ "." ++ extension

/-- The folder has a document. -/
def DocumentIn (files : Files) (folder : List String) (markup : Markup) (content : ByteArray) :
    Prop :=
  ∃ extension ∈ markup.extensions,
    files.node? (folder ++ [documentName extension]) = some (.file content)

/-- The text of a document. -/
def documentText (content : ByteArray) : String := dropMark (Text.ofUtf8 content)

/-- Of the files, only the document matters. -/
theorem load_congr {here there : Surroundings} (environment : here.environment = there.environment)
    (readers : here.readers = there.readers) (arrangement : here.arrangement = there.arrangement)
    (files : fileEntries here = fileEntries there) : load here = load there := by
  simp only [load, laid, inlineEntries, variableEntries, environment, readers, arrangement, files]

theorem fileEntries_of_no_files {here : Surroundings} (empty : here.files.nodes = []) :
    fileEntries here = .ok [] := by
  have nowhere : here.files.nearest? here.searched fileName = none := by
    simp [Files.nearest?, Files.holds, Files.children, empty]
  rw [fileEntries, nowhere]

/-- There is one document in a folder at most, and no file has the name of a document without
its ending. -/
structure Tidy (files : Files) : Prop where
  single : ∀ folder markup content, DocumentIn files folder markup content →
    ∀ other content', DocumentIn files folder other content' → other = markup ∧ content' = content
  ended : ∀ folder content, files.node? (folder ++ [fileName]) ≠ some (.file content)

/-- A folder has the document, and no folder between it and the one that is started from has any. -/
structure NearestDocument (here : Surroundings) (folder : List String) (markup : Markup)
    (content : ByteArray) : Prop where
  above : folder <+: here.folder
  file : DocumentIn here.files folder markup content
  nearest : ∀ nearer, nearer <+: here.folder → folder.length < nearer.length →
    ∀ other content', ¬ DocumentIn here.files nearer other content'

theorem file_of_documentIn? {here : Surroundings} {folder : List String} {markup : Markup}
    {text : String} (found : documentIn? here folder = some (markup, text)) :
    ∃ content, DocumentIn here.files folder markup content ∧ text = documentText content := by
  unfold documentIn? at found
  split at found
  · cases found
  · obtain ⟨other, -, found⟩ := List.exists_of_findSome?_eq_some found
    obtain ⟨extension, member, found⟩ := List.exists_of_findSome?_eq_some found
    split at found
    next content there =>
      cases found
      exact ⟨content, ⟨extension, member, there⟩, rfl⟩
    · cases found

/-- In a tidy tree the file that is there is the document, whichever markup is tried first. -/
theorem documentIn?_of_file {here : Surroundings} (tidy : Tidy here.files) {folder : List String}
    {markup : Markup} {content : ByteArray} (file : DocumentIn here.files folder markup content) :
    documentIn? here folder = some (markup, documentText content) := by
  cases found : documentIn? here folder with
  | none =>
    obtain ⟨extension, member, there⟩ := file
    unfold documentIn? at found
    split at found
    next bare => exact absurd bare (tidy.ended folder _)
    · have missing := List.findSome?_eq_none_iff.mp found markup (here.mem_markups markup)
      have missing := List.findSome?_eq_none_iff.mp missing extension member
      rw [documentName] at there
      simp [there] at missing
  | some document =>
    obtain ⟨other, text⟩ := document
    obtain ⟨content', there, rfl⟩ := file_of_documentIn? found
    obtain ⟨rfl, rfl⟩ := tidy.single folder markup content file other content' there
    rfl

/-! ## Which document is used -/

/-- Whether a folder has a document. -/
def hasDocument (files : Files) (folder : List String) : Bool :=
  Markup.all.any fun markup => markup.extensions.any fun extension =>
    (files.node? (folder ++ [documentName extension])).any fun node => !node.isFolder

theorem hasDocument_iff {files : Files} {folder : List String} :
    hasDocument files folder = true ↔ ∃ markup content, DocumentIn files folder markup content := by
  simp only [hasDocument, List.any_eq_true, Option.any_eq_true]
  constructor
  · rintro ⟨markup, -, extension, member, node, there, file⟩
    cases node with
    | folder => cases file
    | file content => exact ⟨markup, content, extension, member, there⟩
  · rintro ⟨markup, content, extension, member, there⟩
    exact ⟨markup, by cases markup <;> decide, extension, member, _, there, rfl⟩

/-- Where there is a document at all on the way up, one is the nearest. -/
theorem exists_nearestDocument {here : Surroundings} {folder : List String} {markup : Markup}
    {content : ByteArray} (above : folder <+: here.folder)
    (file : DocumentIn here.files folder markup content) :
    ∃ folder markup content, NearestDocument here folder markup content := by
  have has : hasDocument here.files folder = true := hasDocument_iff.mpr ⟨markup, content, file⟩
  obtain ⟨nearest, found⟩ :=
    Option.isSome_iff_exists.mp (List.find?_isSome.mpr ⟨folder, Path.mem_ancestors.mpr above, has⟩)
  obtain ⟨above, has, nearer⟩ := Path.find?_ancestors_iff.mp found
  obtain ⟨markup, content, file⟩ := hasDocument_iff.mp has
  refine ⟨nearest, markup, content, above, file, ?_⟩
  intro folder between longer other content' there
  have none := nearer folder between longer
  rw [hasDocument_iff.mpr ⟨other, content', there⟩] at none
  cases none

/-- What is on the way up goes before what is above the executable. -/
theorem nearest?_searched {here : Surroundings} {folder : List String}
    (above : folder <+: here.folder) (holds : here.files.holds fileName folder = true) :
    here.files.nearest? here.searched fileName =
      (Path.ancestors here.folder).find? (here.files.holds fileName) := by
  obtain ⟨stop, found⟩ :=
    Option.isSome_iff_exists.mp
      (List.find?_isSome.mpr ⟨folder, Path.mem_ancestors.mpr above, holds⟩)
  rw [Files.nearest?, Surroundings.searched, List.find?_append, found, Option.some_or]

/-- No folder that is nearer has an entry whose name starts as that of a document. -/
def Clear (here : Surroundings) (folder : List String) : Prop :=
  ∀ nearer, nearer <+: here.folder → folder.length < nearer.length →
    ∀ name, Files.startsWith fileName name = true → here.files.node? (nearer ++ [name]) = none

namespace NearestDocument

variable {here : Surroundings} {folder : List String} {markup : Markup} {content : ByteArray}

theorem holds (nearest : NearestDocument here folder markup content) :
    here.files.holds fileName folder = true := by
  obtain ⟨extension, member, there⟩ := nearest.file
  rw [Files.holds_iff]
  refine ⟨documentName extension, ?_, by rw [there]; simp⟩
  have starts : ∀ markup : Markup, ∀ extension ∈ markup.extensions,
      Files.startsWith fileName (documentName extension) = true := by
    intro markup
    cases markup <;> decide
  exact starts markup extension member

theorem document?_of_clear (tidy : Tidy here.files)
    (nearest : NearestDocument here folder markup content) (clear : Clear here folder) :
    document? here = some (markup, documentText content) := by
  have found : here.files.nearest? here.searched fileName = some folder := by
    rw [nearest?_searched nearest.above nearest.holds, Path.find?_ancestors_iff]
    refine ⟨nearest.above, nearest.holds, ?_⟩
    intro nearer above longer
    rw [Bool.eq_false_iff, Ne, Files.holds_iff]
    rintro ⟨name, starts, there⟩
    exact there (clear nearer above longer name starts)
  rw [document?, found, Option.bind_some]
  exact documentIn?_of_file tidy nearest.file

/-- The search stops at an entry that only starts like a document, and there is none in
its folder. -/
theorem document?_of_not_clear (nearest : NearestDocument here folder markup content)
    (hidden : ¬ Clear here folder) :
    document? here = none := by
  simp only [Clear, not_forall] at hidden
  obtain ⟨nearer, above, longer, name, starts, there⟩ := hidden
  have holds : here.files.holds fileName nearer = true := Files.holds_iff.mpr ⟨name, starts, there⟩
  cases found : document? here with
  | none => rfl
  | some document =>
    obtain ⟨stop, stopped, inside⟩ := Option.bind_eq_some_iff.mp found
    rw [nearest?_searched above holds] at stopped
    obtain ⟨stopAbove, -, first⟩ := Path.find?_ancestors_iff.mp stopped
    -- The search has not gone past the nearer folder, so the document it found is nearer as well.
    have near : nearer.length ≤ stop.length := by
      apply Nat.le_of_not_lt
      intro past
      cases holds.symm.trans (first nearer above past)
    obtain ⟨content', file, -⟩ := file_of_documentIn? inside
    exact absurd file (nearest.nearest stop stopAbove (by omega) _ content')

end NearestDocument

/-- Which document is used, for any tidy tree and any folder to start from, if there is a document
on the way up at all. The nearest one is used if and only if no nearer folder has an entry whose
name starts as that of a document; if one has, the settings are those that are loaded where there
are no files at all. It does not matter what is above the executable. -/
theorem nearest_document_used_iff (here : Surroundings) (tidy : Tidy here.files)
    (some_document : ∃ folder markup content, folder <+: here.folder ∧
      DocumentIn here.files folder markup content) :
    ∃ folder markup content, NearestDocument here folder markup content ∧
      (document? here = some (markup, documentText content) ↔ Clear here folder) ∧
      (Clear here folder → fileEntries here = markup.entries here.readers (documentText content)) ∧
      (¬ Clear here folder →
        document? here = none ∧ load here = load { here with files := {} }) := by
  obtain ⟨_, _, _, above, file⟩ := some_document
  obtain ⟨folder, markup, content, nearest⟩ := exists_nearestDocument above file
  refine ⟨folder, markup, content, nearest, ?_, ?_, ?_⟩
  · constructor
    · intro used
      by_contra hidden
      cases used.symm.trans (nearest.document?_of_not_clear hidden)
    · exact nearest.document?_of_clear tidy
  · intro clear
    rw [fileEntries_eq, nearest.document?_of_clear tidy clear]
    rfl
  · intro hidden
    have unused := nearest.document?_of_not_clear hidden
    refine ⟨unused, load_congr rfl rfl rfl ?_⟩
    rw [fileEntries_eq, unused, fileEntries_of_no_files rfl]
    rfl

/-! ## A document and its backup -/

/-- A document, a folder with a backup of it, and a folder with a note. -/
def backedUp : Files where
  nodes :=
    [(["collector_config.toml"], .file "stack.initial_capacity = 7".toUTF8), (["work"], .folder),
      (["work", "collector_config.bak"], .file .empty), (["notes"], .folder),
      (["notes", "config.txt"], .file .empty)]

theorem document_of_backedUp {folder : List String} {markup : Markup} {content : ByteArray}
    (file : DocumentIn backedUp folder markup content) :
    folder = [] ∧ markup = .toml ∧ content = "stack.initial_capacity = 7".toUTF8 := by
  obtain ⟨extension, known, there⟩ := file
  have member := Files.mem_nodes_of_node? there
  cases markup with
  | toml =>
    obtain rfl := List.mem_singleton.mp known
    simpa [backedUp, documentName, fileName, List.append_eq_cons_iff, List.cons_eq_append_iff]
      using member
  | json | json5 | ron | ini =>
    obtain rfl := List.mem_singleton.mp known
    simp [backedUp, documentName, fileName, List.append_eq_cons_iff, List.cons_eq_append_iff]
      at member
  | yaml =>
    simp only [Markup.extensions, List.mem_cons, List.not_mem_nil, or_false] at known
    rcases known with rfl | rfl <;>
      simp [backedUp, documentName, fileName, List.append_eq_cons_iff, List.cons_eq_append_iff]
        at member

theorem tidy_backedUp : Tidy backedUp where
  single folder markup content file other content' file' := by
    obtain ⟨-, rfl, rfl⟩ := document_of_backedUp file
    exact (document_of_backedUp file').2
  ended folder content file := by
    have member := Files.mem_nodes_of_node? file
    simp [backedUp, fileName, List.append_eq_cons_iff, List.cons_eq_append_iff] at member

theorem clear_notes : Clear { files := backedUp, folder := ["notes"] } [] := by
  intro nearer above longer name starts
  obtain rfl : nearer = ["notes"] := above.eq_of_length_le longer
  cases there : backedUp.node? (["notes"] ++ [name]) with
  | none => rfl
  | some node =>
    have member := Files.mem_nodes_of_node? there
    obtain ⟨rfl, -⟩ : name = "config.txt" ∧ node = .file .empty := by simpa [backedUp] using member
    cases starts

/-- A note does not hide the document. -/
theorem document_used_from_notes :
    document? { files := backedUp, folder := ["notes"] } =
      some (.toml, documentText "stack.initial_capacity = 7".toUTF8) := by
  obtain ⟨folder, markup, content, nearest, used, -⟩ :=
    nearest_document_used_iff { files := backedUp, folder := ["notes"] } tidy_backedUp
      ⟨[], .toml, _, by simp, "toml", by simp [Markup.extensions], rfl⟩
  obtain ⟨rfl, rfl, rfl⟩ := document_of_backedUp nearest.file
  exact used.mpr clear_notes

/-- A backup hides the document: what it sets is left at its default. -/
theorem document_hidden_by_backup :
    Tidy backedUp ∧
      NearestDocument { files := backedUp, folder := ["work"] } [] .toml
        "stack.initial_capacity = 7".toUTF8 ∧
      document? { files := backedUp, folder := ["work"] } = none ∧
      (load { files := backedUp, folder := ["work"] }).toOption.map (·.stack.capacity) = some 32 ∧
      (load { files := backedUp, folder := [] }).toOption.map (·.stack.capacity) = some 7 := by
  have file : DocumentIn backedUp [] .toml "stack.initial_capacity = 7".toUTF8 :=
    ⟨"toml", by simp [Markup.extensions], rfl⟩
  refine ⟨tidy_backedUp, ⟨by simp, file, ?_⟩, by decide +kernel, by decide +kernel,
    by decide +kernel⟩
  intro nearer above longer other content file
  rw [(document_of_backedUp file).1] at longer
  cases longer

end Settings

end ShadowTrace
