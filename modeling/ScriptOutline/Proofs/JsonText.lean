/-
**A printed JSON value is read back.**

Printing goes down a value, and reading goes along the text: the tokens of the text of a value are
those of its parts, and the reader, which holds the unfinished containers on a stack, completes the
value at the last of them.  A bare word ends where the next mark or blank begins, so that a value
is read the same whatever follows it, unless that could go on with the word.

Main definitions:

* `Json.IsExact` — a value without numbers that are kept as they are written;
* `Json.tokensOf` — the tokens of a value;
* `Json.EndsWord` — a text that does not go on with a bare word;
* `Json.IsLexed`, `Json.IsRead` — the text of a value has its tokens, and they complete it.

Main results:

* `Json.tokensFrom?_quoted` — a string is read back from its escapes;
* `Json.bareValue?_toString` — so is a whole number from its digits;
* `Json.tokensFrom?_write` — the tokens of a printed value are its tokens;
* `Json.readTokens?_tokensOf` — its tokens complete the value;
* `Json.parse?_jsonText` — **a printed value is read back**.
-/

import Mathlib.Data.List.TakeWhile
import ScriptOutline.Report.Json

set_option relaxedAutoImplicit false
set_option autoImplicit false

namespace ScriptOutline.Json

/-! ### Single characters -/

/-- A character that completes no token only changes the state. -/
theorem tokensFrom?_cons {state next : LexState} {c : Char}
    (h : lexStep? state c = some ([], next)) (rest : List Char) :
    tokensFrom? state (c :: rest) = tokensFrom? next rest := by
  simp [tokensFrom?, h]

/-- A character that completes a token puts it first. -/
theorem tokensFrom?_cons_token {state next : LexState} {c : Char} {token : Token}
    (h : lexStep? state c = some ([token], next)) (rest : List Char) :
    tokensFrom? state (c :: rest) = (tokensFrom? next rest).map (token :: ·) := by
  simp [tokensFrom?, h]

/-! ### Strings -/

theorem hexValue?_digitChar : ∀ n < 16, hexValue? (Nat.digitChar n) = some n := by
  decide

/-- One digit of a code unit. -/
theorem tokensFrom?_digit (text : List Char) (high : Option Nat) (owed unit k : Nat)
    (rest : List Char) :
    tokensFrom? (.unicode text high (owed + 1) unit) (Nat.digitChar (k % 16) :: rest) =
      tokensFrom? (.unicode text high owed (unit * 16 + k % 16)) rest := by
  have hdigit := hexValue?_digitChar (k % 16) (Nat.mod_lt k (by decide))
  exact tokensFrom?_cons (by simp only [lexStep?, hdigit]) rest

/-- A code unit below the surrogates is read back from its four digits. -/
theorem tokensFrom?_hexUnit {text : List Char} {n : Nat} (h : n < 0xD800) (rest : List Char) :
    tokensFrom? (.unicode text none 3 0) (hexUnit n ++ rest) =
      tokensFrom? (.inString (Char.ofNat n :: text)) rest := by
  -- a code unit below 0xD800 is no half of a pair, and is its own character
  have hunit : (((0 * 16 + n / 4096 % 16) * 16 + n / 256 % 16) * 16 + n / 16 % 16) * 16 + n % 16 =
      n := by omega
  have hhigh : ¬(0xD800 ≤ n ∧ n ≤ 0xDBFF) := by omega
  have hlow : ¬(0xDC00 ≤ n ∧ n ≤ 0xDFFF) := by omega
  have hlast := hexValue?_digitChar (n % 16) (Nat.mod_lt n (by decide))
  simp only [hexUnit, List.cons_append, List.nil_append, tokensFrom?_digit]
  refine tokensFrom?_cons ?_ rest
  simp only [lexStep?, hlast, hunit]
  simp [afterUnit?, hhigh, hlow]

/-- A character is read back from the way it is written inside of a string. -/
theorem tokensFrom?_escapedChar (text : List Char) (c : Char) (rest : List Char) :
    tokensFrom? (.inString text) (escapedChar c ++ rest) =
      tokensFrom? (.inString (c :: text)) rest := by
  have hescape : lexStep? (.inString text) '\\' = some ([], .escape text) := rfl
  have hletter : ∀ letter next, afterEscape? text letter = some next → ∀ cs,
      tokensFrom? (.inString text) ('\\' :: letter :: cs) = tokensFrom? next cs := by
    intro letter next h cs
    have hstep : lexStep? (.escape text) letter = some ([], next) := by simp [lexStep?, h]
    rw [tokensFrom?_cons hescape, tokensFrom?_cons hstep]
  simp only [escapedChar]
  split
  · next h => exact h ▸ hletter '"' _ rfl rest
  split
  · next h => exact h ▸ hletter '\\' _ rfl rest
  split
  · next h => exact h ▸ hletter 'b' _ rfl rest
  split
  · next h => exact h ▸ hletter 'f' _ rfl rest
  split
  · next h => exact h ▸ hletter 'n' _ rfl rest
  split
  · next h => exact h ▸ hletter 'r' _ rfl rest
  split
  · next h => exact h ▸ hletter 't' _ rfl rest
  split
  · next hcontrol =>
      have hunit := @tokensFrom?_hexUnit text c.toNat (by omega) rest
      rw [Char.ofNat_toNat] at hunit
      rw [List.cons_append, List.cons_append, hletter 'u' _ rfl, hunit]
  · next hquote hslash _ _ _ _ _ hcontrol =>
      exact tokensFrom?_cons (by simp [lexStep?, hquote, hslash, hcontrol]) rest

/-- A string is read back from its escapes. -/
theorem tokensFrom?_quoted (s : String) (rest : List Char) :
    tokensFrom? .between (quoted s ++ rest) =
      (tokensFrom? .between rest).map (.value (.string s) :: ·) := by
  -- what is read so far is held backwards
  have hinside : ∀ (cs text : List Char),
      tokensFrom? (.inString text) (cs.flatMap escapedChar ++ '"' :: rest) =
        (tokensFrom? .between rest).map
          (.value (.string (String.ofList (text.reverse ++ cs))) :: ·) := by
    intro cs
    induction cs with
    | nil =>
        intro text
        rw [List.append_nil]
        exact tokensFrom?_cons_token rfl rest
    | cons c cs ih =>
        intro text
        rw [List.flatMap_cons, List.append_assoc, tokensFrom?_escapedChar, ih, List.reverse_cons,
          List.append_assoc, List.singleton_append]
  have hopen : lexStep? .between '"' = some ([], .inString []) := rfl
  rw [quoted, List.cons_append, List.cons_append, List.append_assoc, List.singleton_append,
    tokensFrom?_cons hopen, hinside]
  simp

/-! ### Bare words -/

/-- A text that does not go on with a bare word. -/
def EndsWord (rest : List Char) : Prop :=
  ∀ c, rest.head? = some c → isBare c = false

theorem endsWord_cons {c : Char} (h : isBare c = false) (rest : List Char) :
    EndsWord (c :: rest) := by
  simp [EndsWord, h]

/-- A bare word that has started ends before such a text. -/
theorem tokensFrom?_bare {word : List Char} {v : Json} (hv : bareValue? word.reverse = some v)
    {rest : List Char} (hrest : EndsWord rest) :
    tokensFrom? (.bare word) rest = (tokensFrom? .between rest).map (.value v :: ·) := by
  cases rest with
  | nil => simp [tokensFrom?, hv]
  | cons c rest =>
      have hc : isBare c = false := hrest c rfl
      simp only [tokensFrom?, lexStep?, hc, hv, Bool.false_eq_true, if_false]
      cases stepBetween? c with
      | none => rfl
      | some found => simp [Function.comp_def]

theorem tokensFrom?_bare_append {cs : List Char} (h : cs.all isBare = true) (word : List Char)
    (rest : List Char) :
    tokensFrom? (.bare word) (cs ++ rest) = tokensFrom? (.bare (cs.reverse ++ word)) rest := by
  induction cs generalizing word with
  | nil => rfl
  | cons c cs ih =>
      rw [List.all_cons, Bool.and_eq_true] at h
      have hstep : lexStep? (.bare word) c = some ([], .bare (c :: word)) := by
        simp [lexStep?, h.1]
      rw [List.cons_append, tokensFrom?_cons hstep, ih h.2]
      simp

theorem stepBetween?_bare {c : Char} (h : isBare c = true) :
    stepBetween? c = some ([], .bare [c]) := by
  have hne : ∀ d, isBare d = false → c ≠ d := by
    rintro d hd rfl
    rw [h] at hd
    exact Bool.noConfusion hd
  simp [stepBetween?, h, hne ' ' (by decide), hne '\n' (by decide), hne '\t' (by decide),
    hne '\r' (by decide), hne '[' (by decide), hne ']' (by decide), hne '{' (by decide),
    hne '}' (by decide), hne ',' (by decide), hne ':' (by decide), hne '"' (by decide)]

/-- A bare word stands for its value, unless the text goes on with it. -/
theorem tokensFrom?_word {word : List Char} (hne : word ≠ []) (hbare : word.all isBare = true)
    {v : Json} (hv : bareValue? word = some v) {rest : List Char} (hrest : EndsWord rest) :
    tokensFrom? .between (word ++ rest) = (tokensFrom? .between rest).map (.value v :: ·) := by
  cases word with
  | nil => exact absurd rfl hne
  | cons c cs =>
      rw [List.all_cons, Bool.and_eq_true] at hbare
      have hstep : lexStep? .between c = some ([], .bare [c]) := stepBetween?_bare hbare.1
      rw [List.cons_append, tokensFrom?_cons hstep, tokensFrom?_bare_append hbare.2]
      exact tokensFrom?_bare (by simpa using hv) hrest

/-! ### Whole numbers -/

theorem natOfDigits_toDigits (n : Nat) : natOfDigits (Nat.toDigits 10 n) = n := by
  rw [natOfDigits, ← Nat.ofDigitChars_eq_foldl, Nat.ofDigitChars_ten_toDigits]

/-- Only zero starts with the digit zero. -/
theorem head?_toDigits {n : Nat} (h : 0 < n) : (Nat.toDigits 10 n).head? ≠ some '0' := by
  induction n using Nat.strongRecOn with
  | ind n ih =>
    rw [Nat.toDigits_eq_if (by decide)]
    split
    · next hlt =>
        rw [List.head?_cons, ne_eq, Option.some.injEq, Nat.digitChar_eq_zero]
        omega
    · next hle =>
        rw [List.head?_append, Option.or_of_isSome (by simp [Nat.toDigits_ne_nil])]
        exact ih (n / 10) (by omega) (by omega)

theorem all_isDigit_toDigits (n : Nat) : (Nat.toDigits 10 n).all Char.isDigit = true := by
  rw [List.all_eq_true]
  exact fun c hc => Nat.isDigit_of_mem_toDigits (by decide) (by decide) hc

theorem isWhole_toDigits (n : Nat) : isWhole (Nat.toDigits 10 n) = true := by
  have hrun : isDigitRun (Nat.toDigits 10 n) = true := by
    simp [isDigitRun, all_isDigit_toDigits, Nat.toDigits_ne_nil]
  rcases Nat.eq_zero_or_pos n with rfl | hpos
  · decide
  · simp [isWhole, hrun, head?_toDigits hpos]

/-- The digits of a number are its whole part, and nothing follows them. -/
theorem span_toDigits (n : Nat) : (Nat.toDigits 10 n).takeWhile Char.isDigit = Nat.toDigits 10 n ∧
    (Nat.toDigits 10 n).dropWhile Char.isDigit = [] := by
  have hall := List.all_eq_true.1 (all_isDigit_toDigits n)
  exact ⟨List.takeWhile_eq_self_iff.2 hall, List.dropWhile_eq_nil_iff.2 hall⟩

/-- A whole number is written as its digits, behind a minus sign if it is below zero. -/
theorem toList_toString_cases (n : Int) :
    (∃ m : Nat, n = m ∧ (toString n).toList = Nat.toDigits 10 m) ∨
      ∃ m : Nat, 0 < m ∧ n = -(m : Int) ∧ (toString n).toList = '-' :: Nat.toDigits 10 m := by
  have hdigits : ∀ m : Nat, (toString m).toList = Nat.toDigits 10 m := fun m => by
    rw [Nat.toString_eq_ofList_toDigits, String.toList_ofList]
  cases n with
  | ofNat m => exact Or.inl ⟨m, rfl, hdigits m⟩
  | negSucc m =>
      have happend : (toString (Int.negSucc m)).toList = ("-" ++ toString (m + 1)).toList := rfl
      refine Or.inr ⟨m + 1, Nat.succ_pos m, rfl, ?_⟩
      rw [happend, String.toList_append, hdigits]
      rfl

theorem number?_toDigits (n : Nat) : number? (Nat.toDigits 10 n) = some (.number n) := by
  have hminus : (Nat.toDigits 10 n).head? ≠ some '-' := by
    intro hhead
    have hdigit := Nat.isDigit_of_mem_toDigits (by decide) (by decide) (List.mem_of_head? hhead)
    exact absurd hdigit (by decide)
  simp [number?, hminus, span_toDigits, isWhole_toDigits, isFraction, isExponent,
    natOfDigits_toDigits]

theorem number?_minus_toDigits {n : Nat} (h : 0 < n) :
    number? ('-' :: Nat.toDigits 10 n) = some (.number (-(n : Int))) := by
  have hne : n ≠ 0 := by omega
  simp [number?, span_toDigits, isWhole_toDigits, isFraction, isExponent, natOfDigits_toDigits, hne]

/-- What is read as a number is none of the three names. -/
theorem bareValue?_of_number? {word : List Char} {v : Json} (h : number? word = some v) :
    bareValue? word = some v := by
  -- none of the names is a number
  have hne : ∀ name : List Char, number? name = none → word ≠ name := by
    rintro name hname rfl
    simp [hname] at h
  rw [bareValue?, if_neg (hne _ (by decide)), if_neg (hne _ (by decide)),
    if_neg (hne _ (by decide)), h]

/-- A whole number is read back from the way it is written. -/
theorem bareValue?_toString (n : Int) : bareValue? (toString n).toList = some (.number n) := by
  rcases toList_toString_cases n with ⟨m, rfl, htext⟩ | ⟨m, hpos, rfl, htext⟩
  · rw [htext]
    exact bareValue?_of_number? (number?_toDigits m)
  · rw [htext]
    exact bareValue?_of_number? (number?_minus_toDigits hpos)

theorem all_isBare_toString (n : Int) : (toString n).toList.all isBare = true := by
  have hdigits : ∀ m : Nat, (Nat.toDigits 10 m).all isBare = true := by
    intro m
    rw [List.all_eq_true]
    intro c hc
    have hdigit := List.all_eq_true.1 (all_isDigit_toDigits m) c hc
    simp [isBare, Char.isAlphanum, hdigit]
  rcases toList_toString_cases n with ⟨m, -, htext⟩ | ⟨m, -, -, htext⟩
  · rw [htext]
    exact hdigits m
  · rw [htext, List.all_cons, hdigits]
    rfl

theorem toString_ne_nil (n : Int) : (toString n).toList ≠ [] := by
  rcases toList_toString_cases n with ⟨m, -, htext⟩ | ⟨m, -, -, htext⟩
  · rw [htext]
    exact Nat.toDigits_ne_nil
  · rw [htext]
    exact List.cons_ne_nil _ _

/-! ### The tokens of a value -/

/-- A value without numbers that are kept the way they are written. -/
inductive IsExact : Json → Prop
  | null : IsExact .null
  | bool (b : Bool) : IsExact (.bool b)
  | number (n : Int) : IsExact (.number n)
  | string (s : String) : IsExact (.string s)
  | array {items : List Json} (h : ∀ v ∈ items, IsExact v) : IsExact (.array items)
  | object {members : List (String × Json)} (h : ∀ m ∈ members, IsExact m.2) :
      IsExact (.object members)

mutual

/-- The tokens of a value. -/
def tokensOf : Json → List Token
  | .array [] => [.beginArray, .endArray]
  | .array (item :: items) =>
    .beginArray :: tokensOf item ++ tokensOfItems items ++ [.endArray]
  | .object [] => [.beginObject, .endObject]
  | .object ((key, value) :: members) =>
    .beginObject :: .value (.string key) :: .colon :: tokensOf value ++ tokensOfMembers members ++
      [.endObject]
  | v => [.value v]

/-- The tokens of items that follow another one. -/
def tokensOfItems : List Json → List Token
  | [] => []
  | item :: items => .comma :: tokensOf item ++ tokensOfItems items

/-- The tokens of members that follow another one. -/
def tokensOfMembers : List (String × Json) → List Token
  | [] => []
  | (key, value) :: members =>
    .comma :: .value (.string key) :: .colon :: tokensOf value ++ tokensOfMembers members

end

/-! ### Lexing a printed value -/

/-- A mark of structure is a token. -/
theorem tokensFrom?_mark {c : Char} {token : Token} (h : stepBetween? c = some ([token], .between))
    (rest : List Char) :
    tokensFrom? .between (c :: rest) = (tokensFrom? .between rest).map (token :: ·) := by
  have hstep : lexStep? .between c = some ([token], .between) := h
  exact tokensFrom?_cons_token hstep rest

/-- A line break and its indentation are passed over. -/
theorem tokensFrom?_newline (level : Nat) (rest : List Char) :
    tokensFrom? .between (newline level ++ rest) = tokensFrom? .between rest := by
  have hblanks : ∀ n, tokensFrom? .between (List.replicate n ' ' ++ rest) =
      tokensFrom? .between rest := by
    intro n
    induction n with
    | zero => rfl
    | succ n ih =>
        have hblank : lexStep? .between ' ' = some ([], .between) := rfl
        rw [List.replicate_succ, List.cons_append, tokensFrom?_cons hblank, ih]
  have hbreak : lexStep? .between '\n' = some ([], .between) := rfl
  rw [newline, List.cons_append, tokensFrom?_cons hbreak, hblanks]

/-- The tokens of the text of a value are its tokens, at any level and before any text. -/
def IsLexed (v : Json) : Prop :=
  ∀ level rest, EndsWord rest →
    tokensFrom? .between (write level v ++ rest) =
      (tokensFrom? .between rest).map (tokensOf v ++ ·)

theorem endsWord_newline (level : Nat) (rest : List Char) : EndsWord (newline level ++ rest) :=
  endsWord_cons (by decide) _

theorem endsWord_writeItems (level : Nat) (items : List Json) {rest : List Char}
    (h : EndsWord rest) : EndsWord (writeItems level items ++ rest) := by
  cases items with
  | nil => simpa using h
  | cons item items => exact endsWord_cons (by decide) _

theorem endsWord_writeMembers (level : Nat) (members : List (String × Json)) {rest : List Char}
    (h : EndsWord rest) : EndsWord (writeMembers level members ++ rest) := by
  cases members with
  | nil => simpa using h
  | cons member members => exact endsWord_cons (by decide) _

theorem tokensFrom?_writeItems {items : List Json} (h : ∀ v ∈ items, IsLexed v)
    (level : Nat) {rest : List Char} (hrest : EndsWord rest) :
    tokensFrom? .between (writeItems level items ++ rest) =
      (tokensFrom? .between rest).map (tokensOfItems items ++ ·) := by
  induction items with
  | nil => simp [tokensOfItems]
  | cons item items ih =>
      rw [List.forall_mem_cons] at h
      simp only [writeItems, tokensOfItems, List.cons_append, List.append_assoc]
      rw [tokensFrom?_mark rfl, tokensFrom?_newline,
        h.1 level _ (endsWord_writeItems level items hrest), ih h.2]
      simp [Function.comp_def]

/-- A key, the colon behind it, and a value. -/
theorem tokensFrom?_member {v : Json} (h : IsLexed v) (key : String) (level : Nat)
    {rest : List Char} (hrest : EndsWord rest) :
    tokensFrom? .between (quoted key ++ ':' :: ' ' :: (write level v ++ rest)) =
      (tokensFrom? .between rest).map
        (.value (.string key) :: .colon :: tokensOf v ++ ·) := by
  have hblank : lexStep? .between ' ' = some ([], .between) := rfl
  rw [tokensFrom?_quoted, tokensFrom?_mark rfl, tokensFrom?_cons hblank, h level _ hrest]
  simp [Function.comp_def]

theorem tokensFrom?_writeMembers {members : List (String × Json)}
    (h : ∀ m ∈ members, IsLexed m.2) (level : Nat) {rest : List Char}
    (hrest : EndsWord rest) :
    tokensFrom? .between (writeMembers level members ++ rest) =
      (tokensFrom? .between rest).map (tokensOfMembers members ++ ·) := by
  induction members with
  | nil => simp [tokensOfMembers]
  | cons member members ih =>
      obtain ⟨key, value⟩ := member
      rw [List.forall_mem_cons] at h
      simp only [writeMembers, tokensOfMembers, List.cons_append, List.append_assoc,
        List.nil_append]
      rw [tokensFrom?_mark rfl, tokensFrom?_newline,
        tokensFrom?_member h.1 key level (endsWord_writeMembers level members hrest), ih h.2]
      simp [Function.comp_def]

/-- The tokens of a printed value are its tokens. -/
theorem tokensFrom?_write {v : Json} (h : IsExact v) : IsLexed v := by
  induction h with
  | null =>
      intro level rest hrest
      simp only [write]
      exact tokensFrom?_word (by decide) (by decide) rfl hrest
  | bool b =>
      intro level rest hrest
      simp only [write]
      cases b with
      | true => exact tokensFrom?_word (by decide) (by decide) rfl hrest
      | false => exact tokensFrom?_word (by decide) (by decide) rfl hrest
  | number n =>
      intro level rest hrest
      simp only [write]
      exact tokensFrom?_word (toString_ne_nil n) (all_isBare_toString n) (bareValue?_toString n)
        hrest
  | string s =>
      intro level rest hrest
      simp only [write]
      exact tokensFrom?_quoted s rest
  | @array items _ ih =>
      intro level rest hrest
      cases items with
      | nil =>
          simp only [write, List.cons_append, List.nil_append]
          rw [tokensFrom?_mark rfl, tokensFrom?_mark rfl]
          simp [tokensOf, Function.comp_def]
      | cons item items =>
          rw [List.forall_mem_cons] at ih
          -- behind an item stands a comma or the line of the closing bracket: either ends a bare word
          have hend := endsWord_newline level (']' :: rest)
          simp only [write, tokensOf, List.cons_append, List.append_assoc, List.nil_append]
          rw [tokensFrom?_mark rfl, tokensFrom?_newline,
            ih.1 (level + 1) _ (endsWord_writeItems (level + 1) items hend),
            tokensFrom?_writeItems ih.2 (level + 1) hend, tokensFrom?_newline, tokensFrom?_mark rfl]
          simp [Function.comp_def]
  | @object members _ ih =>
      intro level rest hrest
      cases members with
      | nil =>
          simp only [write, List.cons_append, List.nil_append]
          rw [tokensFrom?_mark rfl, tokensFrom?_mark rfl]
          simp [tokensOf, Function.comp_def]
      | cons member members =>
          obtain ⟨key, value⟩ := member
          rw [List.forall_mem_cons] at ih
          have hend := endsWord_newline level ('\x7d' :: rest)
          simp only [write, tokensOf, List.cons_append, List.append_assoc, List.nil_append]
          rw [tokensFrom?_mark rfl, tokensFrom?_newline, tokensFrom?_member ih.1 key (level + 1)
              (endsWord_writeMembers (level + 1) members hend),
            tokensFrom?_writeMembers ih.2 (level + 1) hend, tokensFrom?_newline,
            tokensFrom?_mark rfl]
          simp [Function.comp_def]

/-! ### Reading the tokens of a value -/

/-- The tokens of a value complete it, wherever the reader waits for a value. -/
def IsRead (v : Json) : Prop :=
  ∀ stack awaiting rest, awaiting = .value ∨ awaiting = .firstItem →
    readTokens? ⟨stack, awaiting⟩ (tokensOf v ++ rest) =
      (complete? stack v).bind (readTokens? · rest)

theorem readTokens?_tokensOfItems {items : List Json} (h : ∀ v ∈ items, IsRead v)
    (before : List Json) (stack : List Frame) (rest : List Token) :
    readTokens? ⟨.array before :: stack, .next⟩ (tokensOfItems items ++ rest) =
      readTokens? ⟨.array (items.reverse ++ before) :: stack, .next⟩ rest := by
  induction items generalizing before with
  | nil => rfl
  | cons item items ih =>
      rw [List.forall_mem_cons] at h
      simp only [tokensOfItems, List.cons_append, List.append_assoc, readTokens?, readStep?,
        afterComma?, Option.bind_some]
      rw [h.1 _ _ _ (Or.inl rfl), complete?, Option.bind_some, ih h.2]
      simp

theorem readTokens?_tokensOfMembers {members : List (String × Json)}
    (h : ∀ m ∈ members, IsRead m.2) (before : List (String × Json))
    (stack : List Frame) (rest : List Token) :
    readTokens? ⟨.object before :: stack, .next⟩ (tokensOfMembers members ++ rest) =
      readTokens? ⟨.object (members.reverse ++ before) :: stack, .next⟩ rest := by
  induction members generalizing before with
  | nil => rfl
  | cons member members ih =>
      obtain ⟨key, value⟩ := member
      rw [List.forall_mem_cons] at h
      simp only [tokensOfMembers, List.cons_append, List.append_assoc, readTokens?, readStep?,
        afterComma?, beginMember?, Option.bind_some]
      rw [h.1 _ _ _ (Or.inl rfl), complete?, Option.bind_some, ih h.2]
      simp

/-- The tokens of a value complete it. -/
theorem readTokens?_tokensOf {v : Json} (h : IsExact v) : IsRead v := by
  induction h with
  | null => rintro stack _ rest (rfl | rfl) <;> rfl
  | bool b => rintro stack _ rest (rfl | rfl) <;> rfl
  | number n => rintro stack _ rest (rfl | rfl) <;> rfl
  | string s => rintro stack _ rest (rfl | rfl) <;> rfl
  | @array items _ ih =>
      intro stack awaiting rest hawaiting
      cases items with
      | nil => rcases hawaiting with rfl | rfl <;> rfl
      | cons item items =>
          rw [List.forall_mem_cons] at ih
          -- the first item completes a frame with nothing before it
          have hbegin : readStep? ⟨stack, awaiting⟩ .beginArray =
              some ⟨.array [] :: stack, .firstItem⟩ := by
            rcases hawaiting with rfl | rfl <;> rfl
          simp only [tokensOf, List.cons_append, List.append_assoc, readTokens?, hbegin,
            Option.bind_some]
          rw [ih.1 _ _ _ (Or.inr rfl), complete?, Option.bind_some,
            readTokens?_tokensOfItems ih.2]
          simp [readTokens?, readStep?, endContainer?]
  | @object members _ ih =>
      intro stack awaiting rest hawaiting
      cases members with
      | nil => rcases hawaiting with rfl | rfl <;> rfl
      | cons member members =>
          obtain ⟨key, value⟩ := member
          rw [List.forall_mem_cons] at ih
          have hbegin : readStep? ⟨stack, awaiting⟩ .beginObject =
              some ⟨.object [] :: stack, .firstKey⟩ := by
            rcases hawaiting with rfl | rfl <;> rfl
          simp only [tokensOf, List.cons_append, List.append_assoc, readTokens?, hbegin,
            Option.bind_some]
          simp only [readStep?, beginMember?, Option.bind_some]
          rw [ih.1 _ _ _ (Or.inl rfl), complete?, Option.bind_some,
            readTokens?_tokensOfMembers ih.2]
          simp [readTokens?, readStep?, endContainer?]

/-- A printed value is read back. -/
theorem parse?_jsonText {v : Json} (h : IsExact v) : parse? (jsonText v) = some v := by
  have hlex := tokensFrom?_write h 0 ['\n'] (endsWord_cons (by decide) [])
  have hread := readTokens?_tokensOf h [] .value [] (Or.inl rfl)
  have hbreak : tokensFrom? .between ['\n'] = some [] := rfl
  rw [hbreak, Option.map_some, List.append_nil] at hlex
  rw [List.append_nil] at hread
  have htext : (jsonText v).toList = write 0 v ++ ['\n'] := by
    rw [jsonText, render, String.toList_append, String.toList_ofList]
    rfl
  rw [parse?, tokens?, htext, hlex, Option.bind_some, hread]
  rfl

end ScriptOutline.Json
