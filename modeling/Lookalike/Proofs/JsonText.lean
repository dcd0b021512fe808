import Mathlib.Data.List.Basic
import Lookalike.Json.Reader
import Lookalike.Json.Writer

/-! # JSON text reads back

A value is `Json.Plain` when its text keeps it: it has no doubles, its integers fit 64 bits and the
members of its objects stand in the order of their names.  `Json.nesting` counts how deep its
containers go, which is all that a reader may be too shallow for.

Main statements: `Json.reads_write` and `Json.readWithin?_text`, that the text of a plain value is read
as that value, by every reader that goes deep enough and by no other; `Json.not_isControl_write`, that
the text has no controls, whatever the strings of the value hold. -/

namespace Lookalike.Json

/-! ### Strings -/

theorem hexValue?_hexDigit : ∀ n < 16, hexValue? (hexDigit n) = some n := by decide

theorem hexUnit?_hexDigit {n : Nat} (h : n < 0x20) :
    hexUnit? '0' '0' (hexDigit (n / 16)) (hexDigit (n % 16)) = some n := by
  have hzero : hexValue? '0' = some 0 := by decide
  have hhigh := hexValue?_hexDigit (n / 16) (by omega)
  have hlow := hexValue?_hexDigit (n % 16) (by omega)
  simp only [hexUnit?, hzero, hhigh, hlow, Option.bind_eq_bind, Option.bind_some, Option.pure_def,
    Option.some.injEq]
  omega

theorem readString_shortEscape {e c : Char} (h : shortEscape? e = some c) (cs : List Char) :
    readString ('\\' :: e :: cs) = (readString cs).map fun r => (c :: r.1, r.2) := by
  have hu : e ≠ 'u' := by
    rintro rfl
    have hnone : shortEscape? 'u' = none := by decide
    rw [hnone] at h
    cases h
  rw [readString]
  · simp [h]
  · intro w x y z cs' he
    exact absurd he hu

theorem readString_control {w x y z : Char} {n : Nat} (h : hexUnit? w x y z = some n)
    (hn : n < 0x20) (cs : List Char) :
    readString ('\\' :: 'u' :: w :: x :: y :: z :: cs) =
      (readString cs).map fun r => (Char.ofNat n :: r.1, r.2) := by
  have hopens : opensPair n = false := by
    simp [opensPair]
    omega
  have hcloses : closesPair n = false := by
    simp [closesPair]
    omega
  rw [readString]
  simp [h, hopens, hcloses]

theorem readString_escapeChar (c : Char) (cs : List Char) :
    readString (escapeChar c ++ cs) = (readString cs).map fun r => (c :: r.1, r.2) := by
  unfold escapeChar
  split_ifs with hquote hslash hcontrol hb ht hn hf hr
  · subst hquote
    exact readString_shortEscape (by decide) cs
  · subst hslash
    exact readString_shortEscape (by decide) cs
  · subst hb
    exact readString_shortEscape (by decide) cs
  · subst ht
    exact readString_shortEscape (by decide) cs
  · subst hn
    exact readString_shortEscape (by decide) cs
  · subst hf
    exact readString_shortEscape (by decide) cs
  · subst hr
    exact readString_shortEscape (by decide) cs
  · have hunit := readString_control (hexUnit?_hexDigit hcontrol) hcontrol cs
    rwa [Char.ofNat_toNat] at hunit
  · rw [List.singleton_append, readString.eq_def]
    simp [hquote, hslash, hcontrol]

theorem readString_escaped (cs rest : List Char) :
    readString (cs.flatMap escapeChar ++ '"' :: rest) = some (cs, rest) := by
  induction cs with
  | nil => simp [readString.eq_def]
  | cons c cs ih =>
      rw [List.flatMap_cons, List.append_assoc, readString_escapeChar, ih]
      rfl

/-! ### Numbers -/

/-- Whether a text goes on with what could be more of a number. -/
def continuesNumber : List Char → Bool
  | [] => false
  | c :: _ => c.isDigit || c == '.' || c == 'e' || c == 'E'

theorem spanDigits_append {digits rest : List Char} (hdigits : ∀ c ∈ digits, c.isDigit = true)
    (hrest : continuesNumber rest = false) : spanDigits (digits ++ rest) = (digits, rest) := by
  have htake : rest.takeWhile Char.isDigit = [] := by
    cases rest with
    | nil => rfl
    | cons c cs => simp_all [continuesNumber]
  have hdrop : rest.dropWhile Char.isDigit = rest := by
    cases rest with
    | nil => rfl
    | cons c cs => simp_all [continuesNumber]
  rw [spanDigits, List.takeWhile_append_of_pos hdigits, List.dropWhile_append_of_pos hdigits, htake,
    hdrop, List.append_nil]

theorem readFraction_of_ends {rest : List Char} (h : continuesNumber rest = false) :
    readFraction rest = some ([], rest) := by
  unfold readFraction
  split
  · simp [continuesNumber] at h
  · rfl

theorem readExponent_of_ends {rest : List Char} (h : continuesNumber rest = false) :
    readExponent rest = some (none, rest) := by
  unfold readExponent
  split
  · rename_i c cs
    have hc : ¬ (c = 'e' ∨ c = 'E') := by
      rintro (rfl | rfl) <;> simp [continuesNumber] at h
    rw [if_neg hc]
  · rfl

theorem head?_toDigits_ne_zero {n : Nat} (h : 0 < n) : (Nat.toDigits 10 n).head? ≠ some '0' := by
  have hdigit : ∀ d < 10, 0 < d → [Nat.digitChar d].head? ≠ some '0' := by decide
  induction n using Nat.strongRecOn with
  | _ n ih =>
      by_cases hn : n < 10
      · rw [Nat.toDigits_of_lt_base hn]
        exact hdigit n hn h
      · have hdiv : 0 < n / 10 := by omega
        rw [Nat.toDigits_of_base_le (by omega) (by omega),
          List.head?_append_of_ne_nil _ Nat.toDigits_ne_nil]
        exact ih (n / 10) (by omega) hdiv

/-- The digits of a number are a numeral without point and exponent. -/
theorem readUnsigned_toDigits (negative : Bool) (n : Nat) {rest : List Char}
    (h : continuesNumber rest = false) :
    readUnsigned negative (Nat.toDigits 10 n ++ rest) =
      (integerOrFloat? negative (Nat.toDigits 10 n)).map fun v => (v, rest) := by
  have hdigits : ∀ c ∈ Nat.toDigits 10 n, c.isDigit = true :=
    fun c hc => Nat.isDigit_of_mem_toDigits (by omega) (by omega) hc
  have hguard : (!(Nat.toDigits 10 n).isEmpty && ((Nat.toDigits 10 n).length == 1 ||
      (Nat.toDigits 10 n).head? != some '0')) = true := by
    have hne : (Nat.toDigits 10 n).isEmpty = false := by simp [Nat.toDigits_ne_nil]
    by_cases hn : n = 0
    · subst hn
      decide
    · simp [hne, head?_toDigits_ne_zero (Nat.pos_of_ne_zero hn)]
  rw [readUnsigned, spanDigits_append hdigits h]
  simp only [hguard, readFraction_of_ends h, readExponent_of_ends h, guard, if_true,
    Option.pure_def, Option.bind_eq_bind, Option.bind_some]
  cases integerOrFloat? negative (Nat.toDigits 10 n) <;> rfl

theorem integerOrFloat?_toDigits {n : Nat} (h : n < UInt64.size) :
    integerOrFloat? false (Nat.toDigits 10 n) = some (integer n) := by
  simp [integerOrFloat?, Nat.ofDigitChars_ten_toDigits, h]

theorem integerOrFloat?_toDigits_neg {n : Nat} (hpos : 0 < n) (h : n ≤ 0x8000000000000000) :
    integerOrFloat? true (Nat.toDigits 10 n) = some (integer (-(n : Int))) := by
  have hne : n ≠ 0 := by omega
  simp [integerOrFloat?, Nat.ofDigitChars_ten_toDigits, h, hne]

theorem readScalar_of_isDigit {c : Char} (h : c.isDigit = true) (cs : List Char) :
    readScalar (c :: cs) = readUnsigned false (c :: cs) := by
  unfold readScalar
  split
  case h_6 => rfl
  all_goals
    injection ‹_ :: _ = _ :: _› with hc
    subst hc
    cases h

/-- An integer starts with a digit or a minus. -/
theorem exists_integerText_eq_cons (n : Int) :
    ∃ c cs, integerText n = c :: cs ∧ (c = '-' ∨ c.isDigit = true) := by
  unfold integerText
  split_ifs
  · exact ⟨_, _, rfl, Or.inl rfl⟩
  · cases hdigits : Nat.toDigits 10 n.natAbs with
    | nil => exact absurd hdigits Nat.toDigits_ne_nil
    | cons c cs =>
        have hc : c ∈ Nat.toDigits 10 n.natAbs := by simp [hdigits]
        exact ⟨c, cs, rfl, Or.inr (Nat.isDigit_of_mem_toDigits (by omega) (by omega) hc)⟩

theorem readScalar_integerText {n : Int} (hmin : -0x8000000000000000 ≤ n) (hmax : n < UInt64.size)
    {rest : List Char} (h : continuesNumber rest = false) :
    readScalar (integerText n ++ rest) = some (integer n, rest) := by
  unfold integerText
  split_ifs with hneg
  · rw [List.cons_append]
    have hread : readScalar ('-' :: (Nat.toDigits 10 n.natAbs ++ rest)) =
        readUnsigned true (Nat.toDigits 10 n.natAbs ++ rest) := rfl
    rw [hread, readUnsigned_toDigits true n.natAbs h,
      integerOrFloat?_toDigits_neg (by omega) (by omega)]
    have habs : -(n.natAbs : Int) = n := by omega
    rw [habs]
    rfl
  · have habs : (n.natAbs : Int) = n := by omega
    have hfits : n.natAbs < UInt64.size := by omega
    have hread : readScalar (Nat.toDigits 10 n.natAbs ++ rest) =
        readUnsigned false (Nat.toDigits 10 n.natAbs ++ rest) := by
      cases hdigits : Nat.toDigits 10 n.natAbs with
      | nil => exact absurd hdigits Nat.toDigits_ne_nil
      | cons c cs =>
          have hc : c ∈ Nat.toDigits 10 n.natAbs := by simp [hdigits]
          exact readScalar_of_isDigit (Nat.isDigit_of_mem_toDigits (by omega) (by omega) hc) _
    rw [hread, readUnsigned_toDigits false n.natAbs h, integerOrFloat?_toDigits hfits, habs]
    rfl

/-! ### Values -/

/-- A value that its text keeps: it has no doubles, its integers fit 64 bits and its objects list
their members by increasing name. -/
inductive Plain : Json → Prop where
  | null : Plain null
  | boolean (b : Bool) : Plain (boolean b)
  | integer {n : Int} (hmin : -0x8000000000000000 ≤ n) (hmax : n < UInt64.size) : Plain (integer n)
  | string (s : String) : Plain (string s)
  | array {items : List Json} (hitems : ∀ v ∈ items, Plain v) : Plain (array items)
  | object {members : List (String × Json)} (hnames : KeysIncrease members)
      (hmembers : ∀ m ∈ members, Plain m.2) : Plain (object members)

mutual

/-- How deep containers are nested in a value. -/
def nesting : Json → Nat
  | array items => nestingOfItems items + 1
  | object members => nestingOfMembers members + 1
  | _ => 0

def nestingOfItems : List Json → Nat
  | [] => 0
  | v :: vs => max v.nesting (nestingOfItems vs)

def nestingOfMembers : List (String × Json) → Nat
  | [] => 0
  | (_, v) :: ms => max v.nesting (nestingOfMembers ms)

end

theorem nestingOfItems_le_iff {items : List Json} {depth : Nat} :
    nestingOfItems items ≤ depth ↔ ∀ v ∈ items, v.nesting ≤ depth := by
  induction items with
  | nil => simp [nestingOfItems]
  | cons v vs ih => rw [nestingOfItems, Nat.max_le, ih, List.forall_mem_cons]

theorem nestingOfMembers_le_iff {members : List (String × Json)} {depth : Nat} :
    nestingOfMembers members ≤ depth ↔ ∀ m ∈ members, m.2.nesting ≤ depth := by
  induction members with
  | nil => simp [nestingOfMembers]
  | cons m ms ih => rw [nestingOfMembers, Nat.max_le, ih, List.forall_mem_cons]

/-- Whether a character may be the first of a value. -/
def opensValue (c : Char) : Bool :=
  c.isDigit || ['n', 't', 'f', '"', '[', '\x7b', '-'].contains c

theorem exists_write_eq_cons {v : Json} (h : Plain v) :
    ∃ c cs, v.write = c :: cs ∧ opensValue c = true := by
  cases h with
  | null => exact ⟨_, _, rfl, rfl⟩
  | boolean b => cases b <;> exact ⟨_, _, rfl, rfl⟩
  | @integer n _ _ =>
      obtain ⟨c, cs, htext, hc⟩ := exists_integerText_eq_cons n
      refine ⟨c, cs, htext, ?_⟩
      rcases hc with rfl | hc
      · rfl
      · simp [opensValue, hc]
  | string s => exact ⟨_, _, rfl, rfl⟩
  | array _ => exact ⟨_, _, rfl, rfl⟩
  | object _ _ => exact ⟨_, _, rfl, rfl⟩

theorem skipBlanks_cons {c : Char} (h : isBlank c = false) (cs : List Char) :
    skipBlanks (c :: cs) = c :: cs := by
  rw [skipBlanks, List.dropWhile_cons_of_neg (by simp [h])]

theorem ne_of_opensValue {c d : Char} (h : opensValue c = true) (hd : opensValue d = false) :
    c ≠ d := by
  rintro rfl
  rw [h] at hd
  cases hd

theorem isBlank_of_opensValue {c : Char} (h : opensValue c = true) : isBlank c = false := by
  simp [isBlank, ne_of_opensValue h (d := ' ') rfl, ne_of_opensValue h (d := '\n') rfl,
    ne_of_opensValue h (d := '\t') rfl, ne_of_opensValue h (d := '\r') rfl]

/-- Outside of containers the depth does not count. -/
theorem readValue_of_scalar {c : Char} (hblank : isBlank c = false) (harray : c ≠ '[')
    (hobject : c ≠ '\x7b') (depth : Nat) (cs : List Char) :
    readValue depth (c :: cs) = readScalar (c :: cs) := by
  cases depth with
  | zero =>
      rw [readValue, skipBlanks_cons hblank]
      split
      · simp_all
      · simp_all
      · rfl
  | succ depth =>
      rw [readValue, skipBlanks_cons hblank]
      split
      · simp_all
      · simp_all
      · rfl

/-! ### Containers -/

section Parts

variable {α : Type}

/-- A reader of parts reads a text as a part, whatever follows it, exactly if that part fits. -/
def Reads (part : List Char → Option (α × List Char)) (text : List Char) (a : α) (fits : Prop)
    [Decidable fits] : Prop :=
  ∀ rest, continuesNumber rest = false →
    part (text ++ rest) = if fits then some (a, rest) else none

variable {close : Char} {part : List Char → Option (α × List Char)} {cs rest : List Char} {a : α}

theorem readParts_of_none (h : part cs = none) : readParts close part cs = none := by
  rw [readParts, h]

theorem readParts_of_last (hclose : isBlank close = false) (h : part cs = some (a, close :: rest)) :
    readParts close part cs = some ([a], rest) := by
  rw [readParts, h]
  simp [skipBlanks_cons hclose]

theorem readParts_of_more (hclose : ',' ≠ close) (h : part cs = some (a, ',' :: rest))
    (hlength : rest.length < cs.length) :
    readParts close part cs = (readParts close part rest).map fun r => (a :: r.1, r.2) := by
  rw [readParts, h]
  simp [skipBlanks_cons (c := ',') rfl, hclose, hlength]

/-- Parts that are written between commas are read together, exactly if they all fit. -/
theorem readParts_intercalate (close : Char) {text : α → List Char} {fits : α → Prop}
    [DecidablePred fits] (hblank : isBlank close = false)
    (hnumber : continuesNumber [close] = false) (hcomma : ',' ≠ close) {parts : List α}
    (hne : parts ≠ []) (hparts : ∀ a ∈ parts, Reads part (text a) a (fits a)) (rest : List Char) :
    readParts close part ([','].intercalate (parts.map text) ++ close :: rest) =
      if ∀ a ∈ parts, fits a then some (parts, rest) else none := by
  induction parts with
  | nil => exact absurd rfl hne
  | cons a as ih =>
      obtain ⟨ha, has⟩ := List.forall_mem_cons.mp hparts
      cases as with
      | nil =>
          have hread := ha (close :: rest) hnumber
          rw [List.map_singleton, List.intercalate_singleton]
          split_ifs at hread with hfits
          · rw [readParts_of_last hblank hread, if_pos (List.forall_mem_singleton.mpr hfits)]
          · rw [readParts_of_none hread, if_neg fun h => hfits (List.forall_mem_singleton.mp h)]
      | cons b bs =>
          have hread := ha (',' :: ([','].intercalate ((b :: bs).map text) ++ close :: rest)) rfl
          have htext : [','].intercalate ((a :: b :: bs).map text) ++ close :: rest =
              text a ++ ',' :: ([','].intercalate ((b :: bs).map text) ++ close :: rest) := by
            simp [List.intercalate_cons_cons]
          rw [htext]
          split_ifs at hread with hfits
          · rw [readParts_of_more hcomma hread (by simp; omega), ih (by simp) has]
            by_cases hmore : ∀ c ∈ b :: bs, fits c
            · rw [if_pos hmore, if_pos (List.forall_mem_cons.mpr ⟨hfits, hmore⟩)]
              rfl
            · rw [if_neg hmore, if_neg fun h => hmore (List.forall_mem_cons.mp h).2]
              rfl
          · rw [readParts_of_none hread, if_neg fun h => hfits (List.forall_mem_cons.mp h).1]

end Parts

theorem writeItems_eq_intercalate (items : List Json) :
    writeItems items = [','].intercalate (items.map write) := by
  induction items with
  | nil => rfl
  | cons v vs ih =>
      rw [writeItems, ih]
      cases vs with
      | nil => simp
      | cons w ws => simp [List.intercalate_cons_cons]

theorem writeMembers_eq_intercalate (members : List (String × Json)) :
    writeMembers members = [','].intercalate (members.map writeMember) := by
  induction members with
  | nil => rfl
  | cons m ms ih =>
      rw [writeMembers, ih]
      cases ms with
      | nil => simp
      | cons n ns => simp [List.intercalate_cons_cons]

theorem reads_member {value : List Char → Option (Json × List Char)} {m : String × Json}
    {fits : Prop} [Decidable fits] (hm : Reads value m.2.write m.2 fits) :
    Reads (readMember value) (writeMember m) m fits := by
  intro rest h
  obtain ⟨name, v⟩ := m
  have htext : writeMember (name, v) ++ rest =
      '"' :: (name.toList.flatMap escapeChar ++ '"' :: ':' :: (v.write ++ rest)) := by
    simp [writeMember, quoted]
  have hquote : ∀ cs, skipBlanks ('"' :: cs) = '"' :: cs := skipBlanks_cons rfl
  have hcolon : ∀ cs, skipBlanks (':' :: cs) = ':' :: cs := skipBlanks_cons rfl
  have hread := hm rest h
  rw [htext, readMember, hquote]
  simp only [readString_escaped, hcolon, hread]
  split_ifs <;> simp

section Containers

variable {value : List Char → Option (Json × List Char)}

theorem readArray_of_ne {c : Char} (hblank : isBlank c = false) (hc : c ≠ ']') (cs : List Char) :
    readArray value (c :: cs) = (readParts ']' value (c :: cs)).map fun r => (array r.1, r.2) := by
  rw [readArray, skipBlanks_cons hblank]
  split
  · rename_i heq
    injection heq with heq
    exact absurd heq hc
  · rfl

theorem readObject_of_ne {c : Char} (hblank : isBlank c = false) (hc : c ≠ '\x7d')
    (cs : List Char) :
    readObject value (c :: cs) =
      (readParts '\x7d' (readMember value) (c :: cs)).map fun r => (obj r.1, r.2) := by
  rw [readObject, skipBlanks_cons hblank]
  split
  · rename_i heq
    injection heq with heq
    exact absurd heq hc
  · rfl

variable (fits : Json → Prop) [DecidablePred fits]

theorem readArray_writeItems {items : List Json} (hplain : ∀ v ∈ items, Plain v)
    (hitems : ∀ v ∈ items, Reads value v.write v (fits v)) (rest : List Char) :
    readArray value (writeItems items ++ ']' :: rest) =
      if ∀ v ∈ items, fits v then some (array items, rest) else none := by
  cases items with
  | nil => simp [writeItems, readArray, skipBlanks_cons (c := ']') rfl]
  | cons v vs =>
      have hread := readParts_intercalate ']' rfl rfl (by decide) (List.cons_ne_nil v vs)
        hitems rest
      rw [← writeItems_eq_intercalate] at hread
      obtain ⟨c, cs, htext, hopens⟩ := exists_write_eq_cons (hplain v List.mem_cons_self)
      rw [writeItems, htext] at hread ⊢
      simp only [List.cons_append] at hread ⊢
      rw [readArray_of_ne (isBlank_of_opensValue hopens) (ne_of_opensValue hopens rfl), hread]
      split_ifs <;> rfl

theorem readObject_writeMembers {members : List (String × Json)} (hnames : KeysIncrease members)
    (hmembers : ∀ m ∈ members, Reads value m.2.write m.2 (fits m.2)) (rest : List Char) :
    readObject value (writeMembers members ++ '\x7d' :: rest) =
      if ∀ m ∈ members, fits m.2 then some (object members, rest) else none := by
  cases members with
  | nil =>
      simp [writeMembers, readObject, skipBlanks_cons (c := '\x7d') rfl, obj, sortEntries]
  | cons m ms =>
      have hread := readParts_intercalate '\x7d' rfl rfl (by decide)
        (List.cons_ne_nil m ms) (fun m hm => reads_member (hmembers m hm)) rest
      rw [← writeMembers_eq_intercalate] at hread
      obtain ⟨name, v⟩ := m
      rw [writeMembers, writeMember, quoted] at hread ⊢
      simp only [List.cons_append] at hread ⊢
      rw [readObject_of_ne rfl (by decide), hread]
      have hobj : obj ((name, v) :: ms) = object ((name, v) :: ms) := by
        rw [obj, sortEntries_of_keysIncrease hnames]
      split_ifs
      · rw [Option.map_some, hobj]
      · rfl

end Containers

/-- The text of a plain value is read as that value, however it goes on, by a reader that goes as
deep as the value is nested; by no other. -/
theorem reads_write {v : Json} (h : Plain v) (depth : Nat) :
    Reads (readValue depth) v.write v (v.nesting ≤ depth) := by
  induction h generalizing depth with
  | null =>
      intro rest _
      rw [write, List.cons_append, readValue_of_scalar rfl (by decide) (by decide)]
      simp [readScalar, nesting]
  | boolean b =>
      intro rest _
      cases b with
      | false =>
          rw [write, List.cons_append, readValue_of_scalar rfl (by decide) (by decide)]
          simp [readScalar, nesting]
      | true =>
          rw [write, List.cons_append, readValue_of_scalar rfl (by decide) (by decide)]
          simp [readScalar, nesting]
  | @integer n hmin hmax =>
      intro rest hrest
      have hread := readScalar_integerText hmin hmax hrest
      obtain ⟨c, cs, htext, hc⟩ := exists_integerText_eq_cons n
      have hopens : opensValue c = true := by
        rcases hc with rfl | hc
        · rfl
        · simp [opensValue, hc]
      have hbracket : c ≠ '[' ∧ c ≠ '\x7b' := by
        constructor
        · rintro rfl
          simp [Char.isDigit] at hc
        · rintro rfl
          simp [Char.isDigit] at hc
      rw [htext, List.cons_append] at hread
      rw [write, htext, List.cons_append,
        readValue_of_scalar (isBlank_of_opensValue hopens) hbracket.1 hbracket.2, hread]
      simp [nesting]
  | string s =>
      intro rest _
      rw [write, quoted, List.cons_append, readValue_of_scalar rfl (by decide) (by decide)]
      simp [readScalar, nesting, readString_escaped]
  | @array items hitems ih =>
      intro rest _
      rw [write, List.cons_append, List.append_assoc, List.singleton_append, nesting]
      cases depth with
      | zero => rfl
      | succ depth =>
          rw [readValue, skipBlanks_cons rfl]
          have hread := readArray_writeItems (fun v => v.nesting ≤ depth) hitems
            (fun v hv => ih v hv depth) rest
          simp only [hread, Nat.add_le_add_iff_right, nestingOfItems_le_iff]
  | @object members hnames _ ih =>
      intro rest _
      rw [write, List.cons_append, List.append_assoc, List.singleton_append, nesting]
      cases depth with
      | zero => rfl
      | succ depth =>
          rw [readValue, skipBlanks_cons rfl]
          have hread := readObject_writeMembers (fun v => v.nesting ≤ depth) hnames
            (fun m hm => ih m hm depth) rest
          simp only [hread, Nat.add_le_add_iff_right, nestingOfMembers_le_iff]

/-- The text of a plain value reads back, by a reader that goes as deep as the value is nested; by no
other. -/
theorem readWithin?_text {v : Json} (h : Plain v) (depth : Nat) :
    readWithin? depth v.text = if v.nesting ≤ depth then some v else none := by
  have hread := reads_write h depth [] rfl
  rw [List.append_nil] at hread
  rw [readWithin?, text, String.toList_ofList, hread]
  split_ifs <;> rfl

/-! ### Characters of a text -/

/-- Whether a character is a control below the space. -/
def isControl (c : Char) : Bool := decide (c.toNat < 0x20)

theorem not_isControl_hexDigit : ∀ n < 16, isControl (hexDigit n) = false := by decide

theorem not_isControl_of_isDigit {c : Char} (h : c.isDigit = true) : isControl c = false := by
  simp only [Char.isDigit, Bool.and_eq_true, decide_eq_true_eq] at h
  have hlow : ('0' : Char).toNat ≤ c.toNat := h.1
  have hzero : ('0' : Char).toNat = 48 := rfl
  simp only [isControl, decide_eq_false_iff_not]
  omega

theorem not_isControl_escapeChar (c : Char) : ∀ d ∈ escapeChar c, isControl d = false := by
  unfold escapeChar
  split_ifs with hquote hslash hcontrol
  case neg =>
    have hhigh := not_isControl_hexDigit (c.toNat / 16) (by omega)
    have hlow := not_isControl_hexDigit (c.toNat % 16) (by omega)
    have hfixed : ∀ d ∈ ['\\', 'u', '0', '0'], isControl d = false := by simp [isControl]
    simpa [hhigh, hlow] using hfixed
  case neg => simpa [isControl] using hcontrol
  all_goals simp [isControl]

theorem not_isControl_quoted (s : String) : ∀ d ∈ quoted s, isControl d = false := by
  intro d hd
  simp only [quoted, List.mem_cons, List.mem_append, List.mem_flatMap, List.not_mem_nil,
    or_false] at hd
  rcases hd with rfl | ⟨c, -, hd⟩ | rfl
  · rfl
  · exact not_isControl_escapeChar c d hd
  · rfl

theorem not_isControl_integerText (n : Int) : ∀ d ∈ integerText n, isControl d = false := by
  have hdigits : ∀ d ∈ Nat.toDigits 10 n.natAbs, isControl d = false := fun d hd =>
    not_isControl_of_isDigit (Nat.isDigit_of_mem_toDigits (by omega) (by omega) hd)
  unfold integerText
  split_ifs
  · exact List.forall_mem_cons.mpr ⟨rfl, hdigits⟩
  · exact hdigits

theorem mem_intercalate_comma {d : Char} {texts : List (List Char)}
    (h : d ∈ [','].intercalate texts) : d = ',' ∨ ∃ text ∈ texts, d ∈ text := by
  induction texts with
  | nil => simp at h
  | cons text texts ih =>
      cases texts with
      | nil => exact Or.inr ⟨text, by simp, by simpa using h⟩
      | cons next texts =>
          rw [List.intercalate_cons_cons, List.mem_append, List.mem_append, List.mem_singleton] at h
          rcases h with (h | h) | h
          · exact Or.inr ⟨text, List.mem_cons_self, h⟩
          · exact Or.inl h
          · rcases ih h with h | ⟨other, hother, h⟩
            · exact Or.inl h
            · exact Or.inr ⟨other, List.mem_cons_of_mem text hother, h⟩

/-- The text of a plain value has no controls, whatever its strings have. -/
theorem not_isControl_write {v : Json} (h : Plain v) : ∀ d ∈ v.write, isControl d = false := by
  induction h with
  | null => simp [write, isControl]
  | boolean b => cases b <;> simp [write, isControl]
  | integer _ _ => exact not_isControl_integerText _
  | string s => exact not_isControl_quoted s
  | array _ ih =>
      intro d hd
      rw [write, writeItems_eq_intercalate, List.mem_cons, List.mem_append, List.mem_singleton] at hd
      rcases hd with rfl | hd | rfl
      · rfl
      · rcases mem_intercalate_comma hd with rfl | ⟨text, htext, hd⟩
        · rfl
        · obtain ⟨v, hv, rfl⟩ := List.mem_map.mp htext
          exact ih v hv d hd
      · rfl
  | object _ _ ih =>
      intro d hd
      rw [write, writeMembers_eq_intercalate, List.mem_cons, List.mem_append, List.mem_singleton] at hd
      rcases hd with rfl | hd | rfl
      · rfl
      · rcases mem_intercalate_comma hd with rfl | ⟨text, htext, hd⟩
        · rfl
        · obtain ⟨⟨name, v⟩, hm, rfl⟩ := List.mem_map.mp htext
          rw [writeMember, List.mem_append, List.mem_cons] at hd
          rcases hd with hd | rfl | hd
          · exact not_isControl_quoted name d hd
          · rfl
          · exact ih (name, v) hm d hd
      · rfl

end Lookalike.Json
