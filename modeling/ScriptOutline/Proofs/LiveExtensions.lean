/-
**Which extensions find a file.**

Settings are refused if an extension is empty or starts with a dot, since it is to stand there bare.
What follows the last dot of a file name has no dot in it at all, though, and no slash.  So an
extension with a dot behind its start, or with a slash, is taken without a complaint, and no file
has it.

Main definitions:

* `Settings.withExtensions` — settings with other extensions;
* `Settings.IsDead` — no path belongs to a script because of an extension;
* `HoldsSeparator` — an extension has a dot behind its start, or a slash.

Main results:

* `extension?_spec` — what the extension of a path is made of;
* `extension?_dotted` — the extension of a name that was made with it;
* `Settings.extension_spec` — what is known of the extensions of settings without a fault;
* `Settings.isDead_iff` — the extensions that find no file;
* `accepted_extension_effect` — **an accepted extension finds every file that is named with it, or
  none of any name**;
* `dottedExtension_dead` — the extension `test.ahk` is accepted, and finds none.
-/

import ScriptOutline.Proofs.CaselessNames
import ScriptOutline.Proofs.CollectedScripts
import ScriptOutline.Settings.Check

set_option relaxedAutoImplicit false
set_option autoImplicit false

namespace ScriptOutline

/-! ### What extensions are made of -/

/-- Nothing between the slashes of a path has a slash in it. -/
theorem not_slash_of_mem_splitSlashes {cs segment : List Char} (h : segment ∈ splitSlashes cs) :
    '/' ∉ segment := by
  induction cs generalizing segment with
  | nil =>
      rw [splitSlashes, List.mem_singleton] at h
      simp [h]
  | cons c rest ih =>
      rw [splitSlashes] at h
      split at h
      · rcases List.mem_cons.1 h with rfl | h
        · exact List.not_mem_nil
        · exact ih h
      · next hc =>
          cases hrest : splitSlashes rest with
          | nil => exact absurd hrest (splitSlashes_ne_nil rest)
          | cons first others =>
              rw [hrest] at h ih
              rcases List.mem_cons.1 h with rfl | h
              · rw [List.mem_cons, not_or]
                exact ⟨Ne.symm hc, ih List.mem_cons_self⟩
              · exact ih (List.mem_cons_of_mem first h)

/-- The extension of a path has no dot in it, and no slash. -/
theorem extension?_spec {path extension : List Char} (h : extension? path = some extension) :
    '.' ∉ extension ∧ '/' ∉ extension := by
  obtain ⟨name, hname, hext⟩ := Option.bind_eq_some_iff.1 h
  simp only [Option.ite_none_right_eq_some, Option.some.injEq] at hext
  obtain ⟨-, rfl⟩ := hext
  have hsegment : name ∈ splitSlashes path := by
    obtain ⟨hlast, -⟩ := Option.filter_eq_some_iff.1 hname
    exact List.mem_of_mem_filter (List.mem_of_getLast? hlast)
  rw [List.mem_reverse, List.mem_reverse]
  refine ⟨fun hdot => by simpa using List.mem_takeWhile_imp hdot, fun hslash => ?_⟩
  have hmem := (List.takeWhile_sublist _).mem hslash
  exact not_slash_of_mem_splitSlashes hsegment (List.mem_reverse.1 hmem)

/-- Something, a dot and an extension make a name that a folder can hold. -/
theorem isEntryName_dotted {stem extension : String} (hstem : stem ≠ "") (hext : extension ≠ "")
    (hstem_slash : '/' ∉ stem.toList) (hext_slash : '/' ∉ extension.toList) :
    isEntryName (stem ++ "." ++ extension) = true := by
  have hchars : (stem ++ "." ++ extension).toList = stem.toList ++ '.' :: extension.toList := by
    simp
  have hslash : '/' ∉ stem.toList ++ '.' :: extension.toList := by
    simp [hstem_slash, hext_slash]
  -- three characters or more are neither the folder itself nor the one above
  have hne (short : List Char) (hshort : short.length < 3) :
      stem.toList ++ '.' :: extension.toList ≠ short := by
    have hpos : stem.toList.length ≠ 0 := by simpa using hstem
    have hpos' : extension.toList.length ≠ 0 := by simpa using hext
    rintro rfl
    rw [List.length_append, List.length_cons] at hshort
    omega
  rw [isEntryName, isNaming, hchars]
  simpa [hne [], hne ['.'], hne ['.', '.']] using hslash

/-- A name that is made of something, a dot and an extension has this extension. -/
theorem extension?_dotted {stem extension : String} (hstem : stem ≠ "") (hext : extension ≠ "")
    (hstem_slash : '/' ∉ stem.toList) (hext_dot : '.' ∉ extension.toList)
    (hext_slash : '/' ∉ extension.toList) :
    extension? (stem ++ "." ++ extension).toList = some extension.toList := by
  have hentry := isEntryName_dotted hstem hext hstem_slash hext_slash
  have hone : joinSlashes [stem ++ "." ++ extension] = stem ++ "." ++ extension := by
    simp [joinSlashes]
  rw [← hone]
  refine (extension?_joinSlashes_eq_some_iff (by simpa using hentry)).2 ?_
  exact ⟨_, by simp, stem, hstem, rfl, hext_dot⟩

/-- A character that is no letter from A to Z stays where it is in small letters. -/
theorem mem_asciiLowercase_iff {c : Char} (hc : c.isAlpha = false) {s : String} :
    c ∈ (asciiLowercase s).toList ↔ c ∈ s.toList := by
  have hself {d : Char} (hd : d.isAlpha = false) : d.toLower = d :=
    toLower_of_not_isAlpha (by simp [hd])
  simp only [asciiLowercase, asciiLowercaseChars, String.toList_ofList, List.mem_map]
  constructor
  · rintro ⟨d, hd, rfl⟩
    rw [(toLower_spec d).1] at hc
    rwa [hself hc]
  · intro h
    exact ⟨c, h, hself hc⟩

/-! ### Accepted extensions -/

/-- An extension has a dot behind its start, or a slash. -/
def HoldsSeparator (extension : String) : Prop :=
  '.' ∈ extension.toList.tail ∨ '/' ∈ extension.toList

instance (extension : String) : Decidable (HoldsSeparator extension) :=
  inferInstanceAs (Decidable (_ ∨ _))

namespace Settings

/-- The settings with other extensions. -/
def withExtensions (s : Settings) (extensions : List String) : Settings :=
  { s with analysis := { s.analysis with extensions } }

/-- An extension is dead if no path belongs to a script because of it. -/
def IsDead (s : Settings) (extension : String) : Prop :=
  ∀ path, (s.withExtensions [extension]).isScript path = false

variable {s : Settings} {e : String}

/-- The extensions of settings without a fault are something, and do not start with a dot. -/
theorem extension_spec (h : s.error? = none) (he : e ∈ s.analysis.extensions) :
    e ≠ "" ∧ e.toList.head? ≠ some '.' := by
  have hbare : isBareExtension e = true := by
    rw [error?] at h
    split at h
    · simp at h
    · split at h
      · simp at h
      · split at h
        · simp at h
        · cases hfind : s.analysis.extensions.find? fun e => !isBareExtension e with
          | some bad => simp [hfind] at h
          | none => simpa using List.find?_eq_none.1 hfind e he
  rw [isBareExtension] at hbare
  cases hchars : e.toList with
  | nil => simp [hchars] at hbare
  | cons c rest =>
      refine ⟨?_, by simpa [hchars] using hbare⟩
      rintro rfl
      simp at hchars

/-- Behind a start that is no dot, a separator is any dot and any slash. -/
theorem holdsSeparator_iff (h : e.toList.head? ≠ some '.') :
    HoldsSeparator e ↔ '.' ∈ e.toList ∨ '/' ∈ e.toList := by
  rw [HoldsSeparator]
  refine or_congr_left ?_
  cases hchars : e.toList with
  | nil => simp
  | cons c rest =>
      rw [hchars, List.head?_cons, ne_eq, Option.some.injEq] at h
      simp [Ne.symm h]

/-- A path that an extension makes a script has it for its own, up to the case of A to Z. -/
theorem isScript_withExtensions_iff {path : String} :
    (s.withExtensions [e]).isScript path = true ↔ ∃ extension : String,
      extension? path.toList = some extension.toList ∧ asciiLowercase e = asciiLowercase extension := by
  simp [isScript_iff, withExtensions]

/-- A path belongs to a script because of one extension, or because of the others. -/
theorem isScript_eq_or (he : e ∈ s.analysis.extensions) (path : String) :
    s.isScript path = ((s.withExtensions [e]).isScript path ||
      (s.withExtensions (s.analysis.extensions.filter (· ≠ e))).isScript path) := by
  rw [Bool.eq_iff_iff, Bool.or_eq_true, isScript_iff, isScript_withExtensions_iff, isScript_iff,
    ← exists_or]
  refine exists_congr fun extension => ?_
  rw [← and_or_left]
  refine and_congr_right fun _ => ?_
  simp only [withExtensions, List.mem_filter, decide_eq_true_eq]
  constructor
  · rintro ⟨other, hother, heq⟩
    by_cases hsame : other = e
    · exact Or.inl (hsame ▸ heq)
    · exact Or.inr ⟨other, ⟨hother, hsame⟩, heq⟩
  · rintro (heq | ⟨other, ⟨hother, -⟩, heq⟩)
    · exact ⟨e, he, heq⟩
    · exact ⟨other, hother, heq⟩

/-- An extension with a separator makes no path a script. -/
theorem isDead_of_holdsSeparator (h : s.error? = none) (he : e ∈ s.analysis.extensions)
    (hseparator : HoldsSeparator e) : s.IsDead e := by
  intro path
  rw [Bool.eq_false_iff]
  intro hscript
  obtain ⟨extension, hpath, heq⟩ := isScript_withExtensions_iff.1 hscript
  obtain ⟨hdot, hslash⟩ := extension?_spec hpath
  -- small letters have their dots and slashes where the letters before had them
  rcases (holdsSeparator_iff (extension_spec h he).2).1 hseparator with hmem | hmem
  · rw [← mem_asciiLowercase_iff (by decide), heq, mem_asciiLowercase_iff (by decide)] at hmem
    exact hdot hmem
  · rw [← mem_asciiLowercase_iff (by decide), heq, mem_asciiLowercase_iff (by decide)] at hmem
    exact hslash hmem

/-- An extension without a separator makes every path a script that is named with it. -/
theorem isScript_dotted (h : s.error? = none) (he : e ∈ s.analysis.extensions)
    (hseparator : ¬HoldsSeparator e) {stem : String} (hstem : stem ≠ "")
    (hslash : '/' ∉ stem.toList) : (s.withExtensions [e]).isScript (stem ++ "." ++ e) = true := by
  obtain ⟨hne, hhead⟩ := extension_spec h he
  rw [holdsSeparator_iff hhead, not_or] at hseparator
  refine isScript_withExtensions_iff.2 ⟨e, ?_, rfl⟩
  exact extension?_dotted hstem hne hslash hseparator.1 hseparator.2

/-- The extensions that find no file are those with a separator. -/
theorem isDead_iff (h : s.error? = none) (he : e ∈ s.analysis.extensions) :
    s.IsDead e ↔ HoldsSeparator e := by
  refine ⟨fun hdead => ?_, isDead_of_holdsSeparator h he⟩
  by_contra hseparator
  have hscript : (s.withExtensions [e]).isScript ("a" ++ "." ++ e) = true :=
    isScript_dotted h he hseparator (by decide) (by decide)
  rw [hdead] at hscript
  exact Bool.noConfusion hscript

end Settings

/--
**Accepted extensions beside the files they find.**  Of the extensions of settings without a fault,
those are dead that have a dot behind their start, or a slash: with any of them left out, the same
paths belong to scripts.  Every other one finds each file that is named with it, whatever stands
before the dot.
-/
theorem accepted_extension_effect {s : Settings} (h : s.error? = none) {e : String}
    (he : e ∈ s.analysis.extensions) :
    (s.IsDead e ↔ HoldsSeparator e) ∧
      (HoldsSeparator e → ∀ path, s.isScript path =
        (s.withExtensions (s.analysis.extensions.filter (· ≠ e))).isScript path) ∧
      (¬HoldsSeparator e → ∀ stem : String, stem ≠ "" → '/' ∉ stem.toList →
        s.isScript (stem ++ "." ++ e) = true) := by
  refine ⟨Settings.isDead_iff h he, fun hseparator path => ?_, fun hseparator stem hstem hslash => ?_⟩
  · rw [Settings.isScript_eq_or he, Settings.isDead_of_holdsSeparator h he hseparator,
      Bool.false_or]
  · rw [Settings.isScript_eq_or he, Settings.isScript_dotted h he hseparator hstem hslash,
      Bool.true_or]

/-- Settings that pick tests, and the scripts of another edition. -/
def testSettings : Settings :=
  { analysis := { extensions := ["test.ahk", "AHK2"] } }

/-- The extension of the other edition finds a file with two dots in its name, and in small letters
too; the first one is dead. -/
theorem accepted_extension_effect_testSettings :
    testSettings.error? = none ∧ "test.ahk" ∈ testSettings.analysis.extensions ∧
      "AHK2" ∈ testSettings.analysis.extensions ∧ testSettings.IsDead "test.ahk" ∧
      testSettings.isScript "lib.test.AHK2" = true ∧
      testSettings.isScript "lib.test.ahk" =
        (testSettings.withExtensions ["AHK2"]).isScript "lib.test.ahk" := by
  have hvalid : testSettings.error? = none := by decide
  have htest : "test.ahk" ∈ testSettings.analysis.extensions := by simp [testSettings]
  have hother : "AHK2" ∈ testSettings.analysis.extensions := by simp [testSettings]
  obtain ⟨hdead, hothers, -⟩ := accepted_extension_effect hvalid htest
  obtain ⟨-, -, hfinds⟩ := accepted_extension_effect hvalid hother
  refine ⟨hvalid, htest, hother, hdead.2 (by decide), ?_, hothers (by decide) _⟩
  exact hfinds (by decide) "lib.test" (by decide) (by decide)

/-- The extension `test.ahk` is accepted, and the file `lib.test.ahk` is no script. -/
theorem dottedExtension_dead :
    testSettings.error? = none ∧ "test.ahk" ∈ testSettings.analysis.extensions ∧
      testSettings.isScript ("lib" ++ "." ++ "test.ahk") = false := by
  decide +kernel

end ScriptOutline
