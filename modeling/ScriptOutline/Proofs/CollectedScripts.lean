/-
**Which files are collected, and in which order.**

Below a folder, the scripts are all files that no hidden folder hides, that have one of the set
extensions, and whose path from that folder no set pattern covers: no file is missed, none comes
twice, and none is collected besides.  Only folders hide, and only those between the folder and the
file, so that neither a hidden file nor a hidden folder to start from is left out.  The scripts come
in the order of their names, name by name, whatever the order in which a folder lists its entries;
`a/b.ahk` comes before `a-b.ahk`, though not as a text.

Main definitions:

* `isEntryName`, `FileTree.isProper` — trees whose folders hold each name once, and names only;
* `HasExtension` — how a file name is made of something, a dot, and an extension;
* `Settings.Selects` — what a script has to be.

Main results:

* `splitSlashes_joinSlashes` — a path is split where its names were joined;
* `extension?_joinSlashes_eq_some_iff` — the extension of a path is that of its last name;
* `FileTree.mem_visibleFiles_iff`, `FileTree.nodup_visibleFiles` — what is visible, each file once;
* `precedes_iff_le` — locations are compared name by name;
* `scripts_exact` — **the scripts are the files that the settings select, in order**.
-/

import Mathlib.Data.List.Lex
import Mathlib.Data.List.Nodup
import Mathlib.Data.List.TakeWhile
import Mathlib.Data.String.Basic
import ScriptOutline.Proofs.PairedLists
import ScriptOutline.Settings.Scripts

set_option relaxedAutoImplicit false
set_option autoImplicit false

namespace ScriptOutline

/-! ### Names and paths -/

/-- Whether a folder can hold something under a name. -/
def isEntryName (name : String) : Bool :=
  isNaming name.toList && name.toList ≠ ['.', '.'] && !name.toList.contains '/'

theorem isEntryName_spec {name : String} (h : isEntryName name = true) :
    isNaming name.toList = true ∧ name.toList ≠ ['.', '.'] ∧ '/' ∉ name.toList := by
  simpa [isEntryName, and_assoc] using h

theorem splitSlashes_eq_singleton {cs : List Char} (h : '/' ∉ cs) : splitSlashes cs = [cs] := by
  induction cs with
  | nil => rfl
  | cons c rest ih =>
      rw [List.mem_cons, not_or] at h
      rw [splitSlashes, if_neg (Ne.symm h.1), ih h.2]

theorem splitSlashes_append {cs : List Char} (h : '/' ∉ cs) (rest : List Char) :
    splitSlashes (cs ++ '/' :: rest) = cs :: splitSlashes rest := by
  induction cs with
  | nil => rfl
  | cons c cs ih =>
      rw [List.mem_cons, not_or] at h
      rw [List.cons_append, splitSlashes, if_neg (Ne.symm h.1), ih h.2]

/-- A path is split where its names were joined. -/
theorem splitSlashes_joinSlashes {names : List String} (hne : names ≠ [])
    (h : ∀ name ∈ names, '/' ∉ name.toList) :
    splitSlashes (joinSlashes names).toList = names.map String.toList := by
  have hslash : "/".toList = ['/'] := rfl
  rw [joinSlashes, String.toList_intercalate, hslash]
  induction names with
  | nil => exact absurd rfl hne
  | cons name rest ih =>
      have hname := h name List.mem_cons_self
      cases rest with
      | nil => simpa using splitSlashes_eq_singleton hname
      | cons next rest =>
          have hrest := ih (by simp) fun s hs => h s (List.mem_cons_of_mem name hs)
          rw [List.map_cons, List.map_cons, List.intercalate_cons_cons, List.append_assoc,
            List.singleton_append, splitSlashes_append hname, ← List.map_cons, hrest]

/-- The file name of a path that joins proper names is the last of them. -/
theorem fileName?_joinSlashes {names : List String} (h : ∀ name ∈ names, isEntryName name = true) :
    fileName? (joinSlashes names).toList = names.getLast?.map String.toList := by
  cases names with
  | nil => rfl
  | cons name rest =>
      have hnaming : ((name :: rest).map String.toList).filter isNaming =
          (name :: rest).map String.toList := by
        rw [List.filter_eq_self]
        intro segment hsegment
        obtain ⟨s, hs, rfl⟩ := List.mem_map.1 hsegment
        exact (isEntryName_spec (h s hs)).1
      rw [fileName?, splitSlashes_joinSlashes (by simp) fun s hs => (isEntryName_spec (h s hs)).2.2,
        hnaming, List.getLast?_map]
      cases hlast : (name :: rest).getLast? with
      | none => rfl
      | some last =>
          have hup := (isEntryName_spec (h last (List.mem_of_getLast? hlast))).2.1
          simp [Option.filter, hup]

/-! ### Extensions -/

/-- A file name has something before a dot, and an extension without dots behind it. -/
def HasExtension (name extension : String) : Prop :=
  ∃ stem : String, stem ≠ "" ∧ name = stem ++ "." ++ extension ∧ '.' ∉ extension.toList

/-- What comes before the first dot of a text that goes on behind the dot. -/
theorem takeWhile_dot_iff {cs before : List Char} :
    cs.takeWhile (· ≠ '.') = before ∧ (cs.takeWhile (· ≠ '.')).length + 1 < cs.length ↔
      ∃ after, after ≠ [] ∧ cs = before ++ '.' :: after ∧ '.' ∉ before := by
  constructor
  · rintro ⟨rfl, hlt⟩
    have hnodot : '.' ∉ cs.takeWhile (· ≠ '.') := by
      intro hmem
      simpa using List.mem_takeWhile_imp hmem
    have hsplit := (List.takeWhile_append_dropWhile (p := (· ≠ '.')) (l := cs)).symm
    have hlength := congrArg List.length hsplit
    have hhead := List.head?_dropWhile_not (· ≠ '.') cs
    cases hdrop : cs.dropWhile (· ≠ '.') with
    | nil =>
        rw [hdrop, List.append_nil] at hlength
        omega
    | cons d after =>
        rw [hdrop] at hhead hlength hsplit
        obtain rfl : d = '.' := by simpa using hhead
        refine ⟨after, ?_, hsplit, hnodot⟩
        rintro rfl
        rw [List.length_append, List.length_singleton] at hlength
        omega
  · rintro ⟨after, hafter, rfl, hnodot⟩
    have hbefore : (before ++ '.' :: after).takeWhile (· ≠ '.') = before := by
      rw [List.takeWhile_append_of_pos fun c hc => by simpa using ne_of_mem_of_not_mem hc hnodot]
      simp
    have hpos := List.length_pos_iff.2 hafter
    rw [hbefore, List.length_append, List.length_cons]
    exact ⟨rfl, by omega⟩

/-- The same, read from the end of the name. -/
theorem hasExtension_iff_reverse {name extension : String} :
    HasExtension name extension ↔
      ∃ after, after ≠ [] ∧ name.toList.reverse = extension.toList.reverse ++ '.' :: after ∧
        '.' ∉ extension.toList.reverse := by
  simp only [HasExtension, List.mem_reverse]
  constructor
  · rintro ⟨stem, hstem, rfl, hnodot⟩
    exact ⟨stem.toList.reverse, by simpa using hstem, by simp, hnodot⟩
  · rintro ⟨after, hafter, hname, hnodot⟩
    refine ⟨String.ofList after.reverse, by simpa using hafter, String.toList_inj.1 ?_, hnodot⟩
    rw [← List.reverse_reverse name.toList, hname]
    simp

/-- The extension of a path that joins proper names is that of the last of them. -/
theorem extension?_joinSlashes_eq_some_iff {names : List String}
    (h : ∀ name ∈ names, isEntryName name = true) {extension : String} :
    extension? (joinSlashes names).toList = some extension.toList ↔
      ∃ name ∈ names.getLast?, HasExtension name extension := by
  rw [extension?, fileName?_joinSlashes h]
  cases names.getLast? with
  | none => simp
  | some name =>
      have hdot : name.toList.reverse.takeWhile (· ≠ '.') = extension.toList.reverse ∧ _ ↔ _ :=
        takeWhile_dot_iff
      rw [List.length_reverse, ← List.reverse_eq_iff, ← hasExtension_iff_reverse] at hdot
      simp only [Option.map_some, Option.bind_some, Option.ite_none_right_eq_some,
        Option.some.injEq, Option.mem_def, exists_eq_left', List.length_reverse]
      rw [← hdot, and_comm]

/-! ### Trees of entries -/

namespace FileTree

mutual

/-- Every folder of a tree holds what it holds under proper names, each of them once. -/
def isProper : FileTree → Bool
  | .file _ => true
  | .folder entries => decide (entries.map Prod.fst).Nodup && areProper entries

/-- All entries have proper names and proper trees. -/
def areProper : List (String × FileTree) → Bool
  | [] => true
  | (name, tree) :: rest => isEntryName name && tree.isProper && areProper rest

end

theorem areProper_iff {entries : List (String × FileTree)} :
    areProper entries = true ↔ ∀ e ∈ entries, isEntryName e.1 = true ∧ e.2.isProper = true := by
  induction entries with
  | nil => simp [areProper]
  | cons e rest ih => simp [areProper, ih]

theorem isProper_folder {entries : List (String × FileTree)} :
    (folder entries).isProper = true ↔ (entries.map Prod.fst).Nodup ∧
      ∀ e ∈ entries, isEntryName e.1 = true ∧ e.2.isProper = true := by
  simp [isProper, areProper_iff]

/-- In a proper tree, names lead to what stands beside them. -/
theorem at?_folder_cons {entries : List (String × FileTree)}
    (h : (folder entries).isProper = true) {name : String} {rest : List String} {t : FileTree} :
    (folder entries).at? (name :: rest) = some t ↔
      ∃ child, (name, child) ∈ entries ∧ child.at? rest = some t := by
  simp only [at?, child?, Option.bind_eq_some_iff, lookup_eq_some_iff_mem (isProper_folder.1 h).1]

/-- All names that lead somewhere in a proper tree are proper. -/
theorem isEntryName_of_at? {t found : FileTree} (ht : t.isProper = true) {location : List String}
    (h : t.at? location = some found) : ∀ name ∈ location, isEntryName name = true := by
  induction location generalizing t with
  | nil => simp
  | cons name rest ih =>
      cases t with
      | file bytes => simp [at?, child?] at h
      | folder entries =>
          obtain ⟨child, hmem, hchild⟩ := (at?_folder_cons ht).1 h
          obtain ⟨hname, hproper⟩ := (isProper_folder.1 ht).2 _ hmem
          intro s hs
          rcases List.mem_cons.1 hs with rfl | hs
          · exact hname
          · exact ih hproper hchild s hs

/-! ### What is visible -/

/-- What is visible of an entry: nothing of a hidden folder, and else all that is visible in it. -/
def visibleThrough (e : String × FileTree) : List (List String × List UInt8) :=
  if e.2.isFolder && isHidden e.1 then []
  else e.2.visibleFiles.map fun file => (e.1 :: file.1, file.2)

theorem visibleFilesOf_eq_flatMap (entries : List (String × FileTree)) :
    visibleFilesOf entries = entries.flatMap visibleThrough := by
  induction entries with
  | nil => rfl
  | cons e rest ih => rw [visibleFilesOf, ih, List.flatMap_cons, visibleThrough]

theorem mem_visibleThrough_iff {e : String × FileTree} {location : List String}
    {bytes : List UInt8} :
    (location, bytes) ∈ visibleThrough e ↔ (e.2.isFolder && isHidden e.1) = false ∧
      ∃ rest, (rest, bytes) ∈ e.2.visibleFiles ∧ location = e.1 :: rest := by
  rw [visibleThrough]
  split
  · next h => simp [h]
  · next h => simp [h, eq_comm]

/-- Only folders hide, and only those before the last name. -/
theorem not_hidden_cons_iff {child : FileTree} {name : String} {rest : List String}
    {bytes : List UInt8} (h : child.at? rest = some (.file bytes)) :
    (∀ s ∈ (name :: rest).dropLast, isHidden s = false) ↔
      (child.isFolder && isHidden name) = false ∧ ∀ s ∈ rest.dropLast, isHidden s = false := by
  cases rest with
  | nil =>
      obtain rfl : child = .file bytes := Option.some.inj h
      simp [isFolder]
  | cons next rest =>
      cases child with
      | file b => simp [at?, child?] at h
      | folder entries =>
          rw [List.dropLast_cons_of_ne_nil (List.cons_ne_nil next rest), List.forall_mem_cons]
          simp [isFolder]

/-- The files that are visible are those to which no hidden folder leads. -/
theorem mem_visibleFiles_iff {t : FileTree} (ht : t.isProper = true) {location : List String}
    {bytes : List UInt8} :
    (location, bytes) ∈ t.visibleFiles ↔
      t.at? location = some (.file bytes) ∧ ∀ name ∈ location.dropLast, isHidden name = false := by
  -- by the location, whose first name leads to one entry only, as names are distinct
  induction location generalizing t with
  | nil =>
      cases t with
      | file b => simp [visibleFiles, at?, @eq_comm _ bytes b]
      | folder entries =>
          simp [visibleFiles, at?, visibleFilesOf_eq_flatMap, mem_visibleThrough_iff]
  | cons name rest ih =>
      cases t with
      | file b => simp [visibleFiles, at?, child?]
      | folder entries =>
          have hchild {child : FileTree} (hmem : (name, child) ∈ entries) :=
            ih ((isProper_folder.1 ht).2 _ hmem).2
          rw [visibleFiles, visibleFilesOf_eq_flatMap, List.mem_flatMap, at?_folder_cons ht]
          simp only [mem_visibleThrough_iff]
          constructor
          · rintro ⟨⟨_, child⟩, hmem, hshown, _, hfile, heq⟩
            obtain ⟨rfl, rfl⟩ := List.cons.inj heq
            obtain ⟨hat, hrest⟩ := (hchild hmem).1 hfile
            exact ⟨⟨child, hmem, hat⟩, (not_hidden_cons_iff hat).2 ⟨hshown, hrest⟩⟩
          · rintro ⟨⟨child, hmem, hat⟩, hvisible⟩
            obtain ⟨hshown, hrest⟩ := (not_hidden_cons_iff hat).1 hvisible
            exact ⟨(name, child), hmem, hshown, rest, (hchild hmem).2 ⟨hat, hrest⟩, rfl⟩

/-- The locations of what is visible of an entry start with its name. -/
theorem exists_cons_of_mem_visibleThrough {e : String × FileTree}
    {file : List String × List UInt8} (h : file ∈ visibleThrough e) :
    ∃ rest, file.1 = e.1 :: rest := by
  obtain ⟨-, rest, -, hlocation⟩ := mem_visibleThrough_iff.1 h
  exact ⟨rest, hlocation⟩

/-- What holds of a folder when it holds of all that is in it, and of files, holds of every tree. -/
@[elab_as_elim]
theorem induct {motive : FileTree → Prop} (file : ∀ bytes, motive (.file bytes))
    (folder : ∀ entries, (∀ e ∈ entries, motive e.2) → motive (.folder entries)) (t : FileTree) :
    motive t := by
  refine visibleFiles.induct motive (fun entries => ∀ e ∈ entries, motive e.2) file folder ?_ ?_ t
  · simp
  · intro name child rest hchild hrest
    exact List.forall_mem_cons.2 ⟨hchild, hrest⟩

/-- No file is visible twice. -/
theorem nodup_visibleFiles {t : FileTree} (ht : t.isProper = true) :
    (t.visibleFiles.map Prod.fst).Nodup := by
  -- by the tree, as a file that came twice would come from one entry or from two
  induction t using FileTree.induct with
  | file bytes => simp [visibleFiles]
  | folder entries ih =>
      obtain ⟨hnames, hproper⟩ := isProper_folder.1 ht
      rw [visibleFiles, visibleFilesOf_eq_flatMap, List.map_flatMap, List.nodup_flatMap]
      refine ⟨?_, (List.pairwise_map.1 hnames).imp ?_⟩
      · intro e he
        rw [visibleThrough]
        split
        · simp
        · rw [List.map_map]
          have hrest := ih e he (hproper e he).2
          rw [List.Nodup, List.pairwise_map] at hrest ⊢
          exact hrest.imp fun hne heq => hne (List.cons.inj heq).2
      · -- what is visible of two entries starts with different names
        intro e e' hne location hmem hmem'
        obtain ⟨file, hfile, rfl⟩ := List.mem_map.1 hmem
        obtain ⟨file', hfile', heq⟩ := List.mem_map.1 hmem'
        obtain ⟨rest, hrest⟩ := exists_cons_of_mem_visibleThrough hfile
        obtain ⟨rest', hrest'⟩ := exists_cons_of_mem_visibleThrough hfile'
        rw [hrest, hrest'] at heq
        exact hne (List.cons.inj heq).1.symm

end FileTree

/-! ### The order of locations -/

/-- Locations are compared name by name. -/
theorem precedes_iff_le {a b : List String} : precedes a b = true ↔ a ≤ b := by
  induction a generalizing b with
  | nil =>
      cases b with
      | nil => exact iff_of_true rfl le_rfl
      | cons name rest => exact iff_of_true rfl (List.nil_lt_cons name rest).le
  | cons name rest ih =>
      cases b with
      | nil => exact iff_of_false Bool.false_ne_true (not_le.2 (List.nil_lt_cons name rest))
      | cons name' rest' =>
          simp only [precedes, Bool.or_eq_true, Bool.and_eq_true, decide_eq_true_eq, ih,
            le_iff_lt_or_eq, List.cons_lt_cons_iff, List.cons.injEq]
          tauto

/-! ### Scripts -/

/--
What a script has to be: a file to which no hidden folder leads, with one of the set extensions up
to the case of A to Z, and with a path that no set pattern covers.
-/
structure Settings.Selects (s : Settings) (t : FileTree) (location : List String)
    (bytes : List UInt8) : Prop where
  file : t.at? location = some (.file bytes)
  not_hidden : ∀ name ∈ location.dropLast, FileTree.isHidden name = false
  extension : ∃ name ∈ location.getLast?, ∃ extension, HasExtension name extension ∧
    ∃ e ∈ s.analysis.extensions, asciiLowercase e = asciiLowercase extension
  not_covered : ∀ pattern ∈ s.excluded, ∀ glob, Glob.ofText pattern = .ok glob →
    glob.covers (joinSlashes location) = false

theorem Settings.isScript_iff {s : Settings} {path : String} :
    s.isScript path = true ↔ ∃ extension : String, extension? path.toList = some extension.toList ∧
      ∃ e ∈ s.analysis.extensions, asciiLowercase e = asciiLowercase extension := by
  rw [isScript]
  cases extension? path.toList with
  | none => simp
  | some ext =>
      simp only [List.any_eq_true, decide_eq_true_eq, Option.some.injEq, asciiLowercase,
        String.ofList_inj]
      constructor
      · rintro ⟨e, he, heq⟩
        exact ⟨String.ofList ext, by simp, e, he, by simpa using heq⟩
      · rintro ⟨extension, rfl, he⟩
        exact he

theorem Settings.excludes_eq_false_iff {s : Settings} {path : String} :
    s.excludes path = false ↔ ∀ pattern ∈ s.excluded, ∀ glob, Glob.ofText pattern = .ok glob →
      glob.covers path = false := by
  simp only [excludes, List.any_eq_false, isCovered, Bool.not_eq_true]
  refine forall₂_congr fun pattern _ => ?_
  cases Glob.ofText pattern with
  | ok glob => simp
  | error e => simp

theorem Settings.selects_iff {s : Settings} {t : FileTree} (ht : t.isProper = true)
    {location : List String} {bytes : List UInt8} :
    s.Selects t location bytes ↔
      (location, bytes) ∈ t.visibleFiles ∧ s.picks location = true := by
  rw [t.mem_visibleFiles_iff ht, picks, Bool.and_eq_true, Bool.not_eq_true', excludes_eq_false_iff,
    isScript_iff]
  -- the names on the way to a file are proper, so that its path tells them apart again
  constructor
  · rintro ⟨hfile, hhidden, ⟨name, hname, extension, hext, he⟩, hcovered⟩
    have hproper := t.isEntryName_of_at? ht hfile
    exact ⟨⟨hfile, hhidden⟩,
      ⟨extension, (extension?_joinSlashes_eq_some_iff hproper).2 ⟨name, hname, hext⟩, he⟩, hcovered⟩
  · rintro ⟨⟨hfile, hhidden⟩, ⟨extension, hpath, he⟩, hcovered⟩
    have hproper := t.isEntryName_of_at? ht hfile
    obtain ⟨name, hname, hext⟩ := (extension?_joinSlashes_eq_some_iff hproper).1 hpath
    exact ⟨hfile, hhidden, ⟨name, hname, extension, hext, he⟩, hcovered⟩

/-- The files of a walk that the settings pick, in order. -/
def Settings.collect (s : Settings) (walk : List (List String × List UInt8)) :
    List (List String × List UInt8) :=
  (walk.filter fun file => s.picks file.1).mergeSort fun a b => precedes a.1 b.1

variable {s : Settings} {t : FileTree} {walk : List (List String × List UInt8)}

/-- A walk that visits what is visible, in any order, collects what the settings select. -/
theorem Settings.mem_collect_iff (ht : t.isProper = true) (hwalk : walk.Perm t.visibleFiles)
    {location : List String} {bytes : List UInt8} :
    (location, bytes) ∈ s.collect walk ↔ s.Selects t location bytes := by
  rw [collect, List.mem_mergeSort, List.mem_filter, hwalk.mem_iff, selects_iff ht]

/-- It collects no file twice, and every file before those with greater locations. -/
theorem Settings.collect_pairwise (ht : t.isProper = true) (hwalk : walk.Perm t.visibleFiles) :
    (s.collect walk).Pairwise fun a b => a.1 < b.1 := by
  have hnodup : ((s.collect walk).map Prod.fst).Nodup := by
    refine ((List.mergeSort_perm _ _).map Prod.fst).nodup_iff.2 ?_
    refine List.Nodup.sublist (List.filter_sublist.map Prod.fst) ?_
    exact (hwalk.map Prod.fst).nodup_iff.2 (t.nodup_visibleFiles ht)
  have hordered : (s.collect walk).Pairwise fun a b => precedes a.1 b.1 = true := by
    refine List.pairwise_mergeSort ?_ ?_ _
    · intro a b c
      simpa only [precedes_iff_le] using le_trans
    · intro a b
      simpa only [Bool.or_eq_true, precedes_iff_le] using le_total a.1 b.1
  refine hordered.imp₂ ?_ (List.pairwise_map.1 hnodup)
  intro a b hle hne
  exact lt_of_le_of_ne (precedes_iff_le.1 hle) hne

/-- Lists with the same members, in order, are the same. -/
theorem eq_of_pairwise_lt {α β : Type} [LinearOrder α] {l l' : List (α × β)}
    (h : l.Pairwise fun a b => a.1 < b.1) (h' : l'.Pairwise fun a b => a.1 < b.1)
    (hmem : ∀ x, x ∈ l ↔ x ∈ l') : l = l' := by
  have hnodup {m : List (α × β)} (hm : m.Pairwise fun a b => a.1 < b.1) : m.Nodup :=
    hm.imp fun hlt heq => absurd (congrArg Prod.fst heq) (ne_of_lt hlt)
  refine List.Perm.eq_of_pairwise ?_ h h'
    ((List.perm_ext_iff_of_nodup (hnodup h) (hnodup h')).2 hmem)
  intro a b _ _ hlt hgt
  exact absurd hlt (lt_asymm hgt)

/--
**Files are collected exactly.**  The scripts below a folder of a proper tree are the list that
holds the files that the settings select, all of them and nothing else, each before those whose
locations are greater, name by name; so none is there twice.  A walk that visits each visible file
once leads to this list, in whatever order it visits them.
-/
theorem scripts_exact (s : Settings) {entries : List (String × FileTree)}
    (h : (FileTree.folder entries).isProper = true) :
    (∀ files, files = s.scripts (.folder entries) ↔
      (∀ location bytes,
        (location, bytes) ∈ files ↔ s.Selects (.folder entries) location bytes) ∧
        files.Pairwise fun a b => a.1 < b.1) ∧
    ∀ walk, walk.Perm (FileTree.folder entries).visibleFiles →
      s.collect walk = s.scripts (.folder entries) := by
  have hself := List.Perm.refl (FileTree.folder entries).visibleFiles
  refine ⟨fun files => ⟨?_, ?_⟩, fun walk hwalk => ?_⟩
  · rintro rfl
    exact ⟨fun _ _ => Settings.mem_collect_iff h hself, Settings.collect_pairwise h hself⟩
  · rintro ⟨hfiles, hordered⟩
    refine eq_of_pairwise_lt hordered (Settings.collect_pairwise h hself) ?_
    rintro ⟨location, bytes⟩
    exact (hfiles location bytes).trans (Settings.mem_collect_iff h hself).symm
  · refine eq_of_pairwise_lt (Settings.collect_pairwise h hwalk)
      (Settings.collect_pairwise h hself) ?_
    rintro ⟨location, bytes⟩
    exact (Settings.mem_collect_iff h hwalk).trans (Settings.mem_collect_iff h hself).symm

/-- A folder with a hidden file and a hidden folder, in which nothing stands in order. -/
def mixedEntries : List (String × FileTree) :=
  [("a.ahk", .file []), (".git", .folder [("hook.ahk", .file [])]), ("a-b.ahk", .file []),
    ("vendor", .folder [("json.ahk", .file [])]), (".start.AHK2", .file []),
    ("a", .folder [("notes.txt", .file []), ("b.ahk", .file [])])]

/-- Settings that leave out what others wrote. -/
def ownSettings : Settings :=
  { excluded := ["vendor/**"] }

/-- The hidden file is a script, and what is in the folder `a` comes before the file `a-b.ahk`. -/
theorem scripts_exact_mixedEntries :
    (FileTree.folder mixedEntries).isProper = true ∧
      ownSettings.scripts (.folder mixedEntries) =
        [([".start.AHK2"], []), (["a", "b.ahk"], []), (["a-b.ahk"], []), (["a.ahk"], [])] ∧
      ownSettings.Selects (.folder mixedEntries) ["a", "b.ahk"] [] ∧
      ¬ownSettings.Selects (.folder mixedEntries) ["vendor", "json.ahk"] [] := by
  have hproper : (FileTree.folder mixedEntries).isProper = true := by decide +kernel
  obtain ⟨hexact, hwalks⟩ := scripts_exact ownSettings hproper
  have hscripts : ownSettings.scripts (.folder mixedEntries) =
      [([".start.AHK2"], []), (["a", "b.ahk"], []), (["a-b.ahk"], []), (["a.ahk"], [])] := by
    -- the visible files in an order in which the sorted ones among them stand already
    let walk : List (List String × List UInt8) := [([".start.AHK2"], []), (["a", "b.ahk"], []),
      (["a", "notes.txt"], []), (["a-b.ahk"], []), (["a.ahk"], []), (["vendor", "json.ahk"], [])]
    have hpicked : (walk.filter fun file => ownSettings.picks file.1) =
        [([".start.AHK2"], []), (["a", "b.ahk"], []), (["a-b.ahk"], []), (["a.ahk"], [])] := by
      decide +kernel
    rw [← hwalks walk (by decide +kernel), Settings.collect, hpicked]
    exact List.mergeSort_of_pairwise (by decide +kernel)
  obtain ⟨hmem, -⟩ := (hexact _).1 hscripts.symm
  refine ⟨hproper, hscripts, (hmem _ _).1 (by simp), ?_⟩
  rw [← hmem]
  decide

end ScriptOutline
