/-
**Every document has one key.**

The key of a document is made in two steps, from its path and from its extension.  Small letters
depend on what stands around them, and the second step changes what stands at the end.  Still a key
is its own key, and all spellings of one document lead to it: folders in front of it do not matter,
nor does the case of its letters A to Z, nor which of the two extensions it has.

Main definitions:

* `IsKey` — what a text is like that is a key: a file name in small letters, without the second
  extension.

Main results:

* `documentKey_cases` — the key is the small file name, or has the first extension in the place of
  the second;
* `isKey_documentKey`, `documentKey_eq_self_iff` — keys are the texts that are their own key;
* `lowercaseChars_extension` — the two extensions leave the small letters in front of them the same;
* `documentKeys_canonical` — **all spellings of a document have one key**.
-/

import Mathlib.Data.List.DropRight
import ScriptOutline.Proofs.CaselessNames
import ScriptOutline.Proofs.SmallLetters
import ScriptOutline.Store

set_option relaxedAutoImplicit false
set_option autoImplicit false

namespace ScriptOutline

/-! ### The last segment of a path -/

theorem isSeparator_iff {c : Char} : isSeparator c = true ↔ c = '/' ∨ c = '\\' := by
  simp [isSeparator]

theorem lastSegment_eq_rtakeWhile (cs : List Char) :
    lastSegment cs = cs.rtakeWhile fun c => !isSeparator c := rfl

/-- The last segment has no separators. -/
theorem not_isSeparator_of_mem_lastSegment {cs : List Char} {c : Char} (h : c ∈ lastSegment cs) :
    isSeparator c = false := by
  rw [lastSegment_eq_rtakeWhile] at h
  simpa using List.mem_rtakeWhile_imp h

/-- What has no separators is its own last segment. -/
theorem lastSegment_of_forall {cs : List Char} (h : ∀ c ∈ cs, isSeparator c = false) :
    lastSegment cs = cs := by
  rw [lastSegment_eq_rtakeWhile, List.rtakeWhile_eq_self_iff]
  simpa using h

/-- What has no separators belongs to the last segment. -/
theorem lastSegment_append {ending : List Char} (h : ∀ c ∈ ending, isSeparator c = false)
    (cs : List Char) : lastSegment (cs ++ ending) = lastSegment cs ++ ending := by
  have hreverse : ∀ c ∈ ending.reverse, (!isSeparator c) = true := by simpa using h
  rw [lastSegment, List.reverse_append, List.takeWhile_append_of_pos hreverse,
    List.reverse_append, List.reverse_reverse, lastSegment]

/-- Folders in front of a path do not belong to its last segment. -/
theorem lastSegment_below {separator : Char} (h : isSeparator separator = true)
    (folder cs : List Char) : lastSegment (folder ++ separator :: cs) = lastSegment cs := by
  rw [lastSegment, List.reverse_append, List.reverse_cons, List.append_assoc,
    List.singleton_append, List.takeWhile_append, lastSegment]
  split
  · next hlength =>
      rw [List.takeWhile_cons_of_neg (by simp [h]), List.append_nil,
        (List.takeWhile_prefix _).eq_of_length hlength]
  · rfl

/-- Separators are no letters. -/
theorem isSeparator_toLower (c : Char) : isSeparator c.toLower = isSeparator c := by
  by_cases h : c.isAlpha = true
  · have hletter := forall_of_isAlpha (p := fun c => isSeparator c.toLower == isSeparator c)
      (by decide +kernel) h
    simpa using hletter
  · rw [toLower_of_not_isAlpha h]

theorem lastSegment_map_toLower (cs : List Char) :
    lastSegment (cs.map Char.toLower) = (lastSegment cs).map Char.toLower := by
  have hsame : (fun c : Char => !isSeparator c) ∘ Char.toLower = fun c => !isSeparator c := by
    funext c
    simp [isSeparator_toLower]
  rw [lastSegment, ← List.map_reverse, List.takeWhile_map, hsame, ← List.map_reverse, lastSegment]

/-! ### Keys -/

/-- What a key is like: a file name in small letters that has not the second extension. -/
structure IsKey (key : String) : Prop where
  no_separator : ∀ c ∈ key.toList, isSeparator c = false
  small : lowercase key = key
  no_second : ¬".ahk2".toList <:+ key.toList

/-- The key is the small file name, or has the first extension in the place of the second. -/
theorem documentKey_cases (document : String) :
    (∃ stem, lowercaseChars (lastSegment document.toList) = stem ++ ".ahk2".toList ∧
      (documentKey document).toList = stem ++ ".ahk".toList) ∨
    ¬".ahk2".toList <:+ lowercaseChars (lastSegment document.toList) ∧
      (documentKey document).toList = lowercaseChars (lastSegment document.toList) := by
  have hkey : (documentKey document).toList =
      if ".ahk2".toList.isSuffixOf (lowercaseChars (lastSegment document.toList)) = true then
        (lowercaseChars (lastSegment document.toList)).dropLast
      else lowercaseChars (lastSegment document.toList) :=
    String.toList_ofList
  by_cases hsecond : ".ahk2".toList <:+ lowercaseChars (lastSegment document.toList)
  · rw [if_pos (List.isSuffixOf_iff_suffix.2 hsecond)] at hkey
    obtain ⟨stem, hstem⟩ := hsecond
    refine Or.inl ⟨stem, hstem.symm, ?_⟩
    rw [hkey, ← hstem, List.dropLast_append_of_ne_nil (by decide)]
    rfl
  · rw [if_neg fun h => hsecond (List.isSuffixOf_iff_suffix.1 h)] at hkey
    exact Or.inr ⟨hsecond, hkey⟩

/-- The first extension is not the second. -/
theorem not_second_of_first (stem : List Char) :
    ¬".ahk2".toList <:+ stem ++ ".ahk".toList := by
  rintro ⟨front, hfront⟩
  have hlast := congrArg List.getLast? hfront
  simp at hlast

theorem mem_lowercaseChars_of_mem_documentKey {document : String} {c : Char}
    (h : c ∈ (documentKey document).toList) :
    c ∈ lowercaseChars (lastSegment document.toList) := by
  rcases documentKey_cases document with ⟨stem, hname, hkey⟩ | ⟨-, hkey⟩
  · rw [hkey] at h
    have hsubset : ".ahk".toList ⊆ ".ahk2".toList := by decide
    rw [hname]
    exact List.mem_append.2 ((List.mem_append.1 h).imp_right fun hc => hsubset hc)
  · rwa [hkey] at h

/-- The key of a document is one. -/
theorem isKey_documentKey (document : String) : IsKey (documentKey document) where
  no_separator := by
    intro c hc
    rcases mem_or_above_of_mem_lowercaseChars (mem_lowercaseChars_of_mem_documentKey hc)
      with hmem | habove
    · exact not_isSeparator_of_mem_lastSegment hmem
    · rw [Bool.eq_false_iff]
      intro hseparator
      rcases isSeparator_iff.1 hseparator with rfl | rfl
      · exact absurd habove (by decide)
      · exact absurd habove (by decide)
  small := by
    have hsmall (c : Char) (hc : c ∈ (documentKey document).toList) : IsSmall c :=
      isSmall_of_mem_lowercaseChars (mem_lowercaseChars_of_mem_documentKey hc)
    rw [lowercase, lowercaseChars_of_isSmall hsmall, String.ofList_toList]
  no_second := by
    rcases documentKey_cases document with ⟨stem, -, hkey⟩ | ⟨hsecond, hkey⟩
    · rw [hkey]
      exact not_second_of_first stem
    · rwa [hkey]

/-- Keys are the texts that are their own key. -/
theorem documentKey_eq_self_iff {document : String} :
    documentKey document = document ↔ IsKey document := by
  constructor
  · intro h
    rw [← h]
    exact isKey_documentKey document
  · rintro ⟨hseparator, hsmall, hsecond⟩
    have hname : lowercaseChars (lastSegment document.toList) = document.toList := by
      rw [lastSegment_of_forall hseparator, ← String.toList_ofList (l := lowercaseChars _)]
      exact congrArg String.toList hsmall
    rw [← String.toList_inj]
    rcases documentKey_cases document with ⟨stem, hstem, -⟩ | ⟨-, hkey⟩
    · exact absurd ⟨stem, (hname.symm.trans hstem).symm⟩ hsecond
    · rw [hkey, hname]

/-! ### Spellings of one document -/

/-- A key depends on the last segment only, up to the case of the letters A to Z. -/
theorem documentKey_congr {a b : String}
    (h : (lastSegment a.toList).map Char.toLower = (lastSegment b.toList).map Char.toLower) :
    documentKey a = documentKey b := by
  have hsmall : lowercaseChars (lastSegment a.toList) = lowercaseChars (lastSegment b.toList) := by
    rw [← lowercaseChars_map_toLower, h, lowercaseChars_map_toLower]
  rw [documentKey, documentKey, hsmall]

/-- The two extensions leave the small letters in front of them the same. -/
theorem lowercaseChars_extension (name : List Char) :
    ∃ small, lowercaseChars (name ++ ".ahk".toList) = small ++ ".ahk".toList ∧
      lowercaseChars (name ++ ".ahk2".toList) = small ++ ".ahk2".toList := by
  have hmeets : meetsCased ".ahk".toList = meetsCased ".ahk2".toList := by decide +kernel
  have hfirst : ∀ c ∈ ".ahk".toList, IsSmall c := List.all_iff_forall_prop.1 (by decide +kernel)
  have hsecond : ∀ c ∈ ".ahk2".toList, IsSmall c := List.all_iff_forall_prop.1 (by decide +kernel)
  obtain ⟨small, hsmall, hsmall'⟩ := exists_lowercaseAfter_append hmeets [] name
  rw [lowercaseAfter_of_isSmall hfirst] at hsmall
  rw [lowercaseAfter_of_isSmall hsecond] at hsmall'
  exact ⟨small, hsmall, hsmall'⟩

/-- The two extensions of a document lead to one key. -/
theorem documentKey_extension (stem : String) :
    documentKey (stem ++ ".ahk2") = documentKey (stem ++ ".ahk") := by
  have hfirst : ∀ c ∈ ".ahk".toList, isSeparator c = false :=
    List.all_iff_forall_prop.1 (by decide)
  have hsecond : ∀ c ∈ ".ahk2".toList, isSeparator c = false :=
    List.all_iff_forall_prop.1 (by decide)
  obtain ⟨small, hsmall, hsmall'⟩ := lowercaseChars_extension (lastSegment stem.toList)
  have hkey : (documentKey (stem ++ ".ahk")).toList = small ++ ".ahk".toList := by
    rcases documentKey_cases (stem ++ ".ahk") with ⟨front, hfront, -⟩ | ⟨-, hkey⟩
    · rw [String.toList_append, lastSegment_append hfirst, hsmall] at hfront
      exact absurd ⟨front, hfront.symm⟩ (not_second_of_first small)
    · rw [hkey, String.toList_append, lastSegment_append hfirst, hsmall]
  have hkey' : (documentKey (stem ++ ".ahk2")).toList = small ++ ".ahk".toList := by
    rcases documentKey_cases (stem ++ ".ahk2") with ⟨front, hfront, hkey⟩ | ⟨hnot, -⟩
    · rw [String.toList_append, lastSegment_append hsecond, hsmall'] at hfront
      rw [hkey, List.append_cancel_right hfront]
    · rw [String.toList_append, lastSegment_append hsecond, hsmall'] at hnot
      exact absurd (List.suffix_append small _) hnot
  exact String.toList_inj.1 (hkey'.trans hkey.symm)

/--
**All spellings of a document have one key.**  The key is a text that is its own key, and these are
the file names in small letters without the second extension.  Folders in front of a document do not
change its key, nor does another case of its letters A to Z, nor the second extension in the place
of the first.
-/
theorem documentKeys_canonical (document : String) :
    documentKey (documentKey document) = documentKey document ∧
      '/' ∉ (documentKey document).toList ∧ '\\' ∉ (documentKey document).toList ∧
      ¬".ahk2".toList <:+ (documentKey document).toList ∧
      (documentKey document = document ↔ IsKey document) ∧
      (∀ folder, ∀ separator ∈ ["/", "\\"],
        documentKey (folder ++ separator ++ document) = documentKey document) ∧
      (∀ other, asciiLowercase other = asciiLowercase document →
        documentKey other = documentKey document) ∧
      ∀ stem, document = stem ++ ".ahk" → documentKey (stem ++ ".ahk2") = documentKey document := by
  have hiskey := isKey_documentKey document
  refine ⟨documentKey_eq_self_iff.2 hiskey, ?_, ?_, hiskey.no_second, documentKey_eq_self_iff,
    ?_, ?_, ?_⟩
  · intro h
    exact Bool.noConfusion (hiskey.no_separator '/' h)
  · intro h
    exact Bool.noConfusion (hiskey.no_separator '\\' h)
  · intro folder separator hseparator
    refine documentKey_congr ?_
    rw [String.toList_append, String.toList_append, List.append_assoc]
    simp only [List.mem_cons, List.not_mem_nil, or_false] at hseparator
    rcases hseparator with rfl | rfl
    · exact congrArg _ (lastSegment_below rfl folder.toList document.toList)
    · exact congrArg _ (lastSegment_below rfl folder.toList document.toList)
  · intro other h
    refine documentKey_congr ?_
    rw [← lastSegment_map_toLower, ← lastSegment_map_toLower]
    exact congrArg lastSegment (String.ofList_inj.1 h)
  · rintro stem rfl
    exact documentKey_extension stem

/-- A script whose name ends with a capital sigma. -/
def greekName : String :=
  "ΟΔΟΣ.ahk"

/-- The extension keeps the sigma from being a final one, whichever extension it is; without one
the document is another. -/
theorem documentKeys_canonical_greekName :
    documentKey greekName = "οδοσ.ahk" ∧ documentKey "ΟΔΟΣ" = "οδος" ∧ IsKey "οδοσ.ahk" ∧
      documentKey ("C:\\Lib" ++ "\\" ++ greekName) = documentKey greekName ∧
      asciiLowercase "ΟΔΟΣ.AHK" = asciiLowercase greekName ∧
      documentKey "ΟΔΟΣ.AHK" = documentKey greekName ∧
      greekName = "ΟΔΟΣ" ++ ".ahk" ∧
      documentKey ("ΟΔΟΣ" ++ ".ahk2") = documentKey greekName := by
  have hkey : documentKey greekName = "οδοσ.ahk" := by decide +kernel
  have hcase : asciiLowercase "ΟΔΟΣ.AHK" = asciiLowercase greekName := by decide +kernel
  have hstem : greekName = "ΟΔΟΣ" ++ ".ahk" := by decide +kernel
  obtain ⟨hself, -, -, -, -, hfolder, hletters, hextension⟩ := documentKeys_canonical greekName
  obtain ⟨-, -, -, -, hfixed, -⟩ := documentKeys_canonical "οδοσ.ahk"
  rw [hkey] at hself
  exact ⟨hkey, by decide +kernel, hfixed.1 hself, hfolder "C:\\Lib" "\\" (by decide), hcase,
    hletters "ΟΔΟΣ.AHK" hcase, hstem, hextension "ΟΔΟΣ" hstem⟩

end ScriptOutline
