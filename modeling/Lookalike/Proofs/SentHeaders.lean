import Mathlib.Data.List.Basic
import Lookalike.Engine.Headers
import Lookalike.Proofs.Vocabulary

/-! # Headers that are sent

The headers of a request are set one after the other, and a name that is set again loses what it had.  So
a run of headers that may all be sent leaves of each name what was set last (`setAll_eq_ok_iff`), which is
the configured header with the greatest key that reads so in small letters, or else the key for the search
engine.  A run with one that may not be sent ends at the first of them (`setAll_eq_error_iff`).

Main statement: `all_sends`. -/

namespace Lookalike
namespace Header

/-! ### What may be sent -/

/-- Bytes that stand in no value: the controls but for the tab. -/
def Forbidden (b : UInt8) : Prop := (b.toNat < 0x20 ∧ b.toNat ≠ 0x09) ∨ b.toNat = 0x7F

/-- A text may be a value: none of its bytes is forbidden. -/
def Sendable (s : String) : Prop := ∀ b ∈ s.toUTF8.data.toList, ¬Forbidden b

/-- A text may be a name: it is a token that is not empty. -/
def Token (s : String) : Prop := s ≠ "" ∧ ∀ c ∈ s.toList, isTokenChar c = true

/-- A configured header may be sent. -/
def Good (key : String) (value : Json) : Prop :=
  ∃ text, value = .string text ∧ Token key ∧ Sendable text

/-- Why a configured header may not be sent.  That its value is a text is asked first, then for its name,
then for its value. -/
inductive Fault (key : String) : Json → ClientError → Prop
  | notText {value : Json} (h : ∀ text, value ≠ .string text) :
      Fault key value (.invalidConfig "Default header values must be strings.")
  | name {text : String} (h : ¬Token key) : Fault key (.string text) .headerName
  | value {text : String} (hname : Token key) (h : ¬Sendable text) :
      Fault key (.string text) .headerValue

/-- The fault of the first header that may not be sent. -/
def FirstFault (configured : List (String × Json)) (e : ClientError) : Prop :=
  ∃ before key value after, configured = before ++ (key, value) :: after ∧
    (∀ header ∈ before, Good header.1 header.2) ∧ Fault key value e

section Characters

theorem toList_toUTF8 (s : String) :
    s.toUTF8.data.toList = s.toList.flatMap String.utf8EncodeChar := by
  conv => lhs; rw [← String.ofList_toList (s := s)]
  rw [String.toUTF8_eq_toByteArray, String.toByteArray_ofList, List.utf8Encode]
  simp

theorem isValueChar_iff_toNat {c : Char} :
    isValueChar c = true ↔ c.toNat = 9 ∨ (32 ≤ c.toNat ∧ c.toNat ≠ 127) := by
  have htab : c = '\t' ↔ c.toNat = 9 := Char.toNat_inj.symm
  simp [isValueChar, htab]

/-- Whether a character may stand in a value is told by its bytes: a character up to 127 is one byte, and
any other is two to four bytes of which each is at least 128. -/
theorem isValueChar_iff {c : Char} :
    isValueChar c = true ↔ ∀ b ∈ String.utf8EncodeChar c, ¬Forbidden b := by
  have hnumber : c.toNat = c.val.toNat := rfl
  rw [isValueChar_iff_toNat, hnumber]
  unfold String.utf8EncodeChar Forbidden
  dsimp only
  split_ifs <;>
    simp only [List.mem_cons, List.not_mem_nil, or_false, forall_eq_or_imp, forall_eq,
      UInt8.toNat_ofNat'] <;>
    omega

theorem isValue_iff {s : String} : isValue s = true ↔ Sendable s := by
  unfold isValue Sendable
  rw [toList_toUTF8, List.all_eq_true]
  simp only [isValueChar_iff, List.mem_flatMap]
  constructor
  · rintro h b ⟨c, hc, hb⟩
    exact h c hc b hb
  · exact fun h c hc b hb => h b ⟨c, hc, hb⟩

theorem name?_eq_some_iff {key name : String} :
    name? key = some name ↔ Token key ∧ Text.lowerAscii key = name := by
  unfold name? Token
  simp [and_assoc]

end Characters

/-! ### One header -/

section Set

variable {headers sent : KeyMap String} {key : String} {value : Json} {e : ClientError}

theorem good_or_fault (key : String) (value : Json) :
    Good key value ∨ ∃ e, Fault key value e := by
  by_cases htext : ∃ text, value = .string text
  · obtain ⟨text, rfl⟩ := htext
    by_cases hname : Token key
    · by_cases hvalue : Sendable text
      · exact Or.inl ⟨text, rfl, hname, hvalue⟩
      · exact Or.inr ⟨_, .value hname hvalue⟩
    · exact Or.inr ⟨_, .name hname⟩
  · exact Or.inr ⟨_, .notText (not_exists.mp htext)⟩

/-- A header that may be sent takes the place of any that has its name in small letters. -/
theorem set_of_good {text : String} (hname : Token key) (hvalue : Sendable text) :
    set headers key (.string text) = .ok (headers.insert (Text.lowerAscii key) text) := by
  have hname : name? key = some (Text.lowerAscii key) := name?_eq_some_iff.mpr ⟨hname, rfl⟩
  have hvalue : isValue text = true := isValue_iff.mpr hvalue
  simp [set, Json.string?, hname, hvalue]

theorem set_of_fault (headers : KeyMap String) (h : Fault key value e) :
    set headers key value = .error e := by
  cases h with
  | notText htext =>
      have hnone : value.string? = none := by
        rw [Option.eq_none_iff_forall_ne_some]
        exact fun text hsome => htext text (Json.string?_eq_some_iff.mp hsome)
      simp [set, hnone]
  | name hname =>
      have hnone : name? key = none := by
        rw [Option.eq_none_iff_forall_ne_some]
        exact fun name hsome => hname (name?_eq_some_iff.mp hsome).1
      simp [set, Json.string?, hnone]
  | value hname hvalue =>
      have hname : name? key = some (Text.lowerAscii key) := name?_eq_some_iff.mpr ⟨hname, rfl⟩
      have hvalue : isValue _ ≠ true := mt isValue_iff.mp hvalue
      simp [set, Json.string?, hname, hvalue]

theorem not_good_of_fault (h : Fault key value e) : ¬Good key value := by
  rintro ⟨text, rfl, hname, hvalue⟩
  have hset := set_of_fault ∅ h
  rw [set_of_good hname hvalue] at hset
  cases hset

end Set

/-! ### Headers in order -/

/-- A value is what was set last for a name. -/
def SetLast (configured : List (String × Json)) (name value : String) : Prop :=
  ∃ before key after, configured = before ++ (key, .string value) :: after ∧
    Text.lowerAscii key = name ∧ ∀ header ∈ after, Text.lowerAscii header.1 ≠ name

/-- Every name has what was set last for it, or what it had before if nothing was. -/
def Leaves (headers : KeyMap String) (configured : List (String × Json)) (sent : KeyMap String) :
    Prop :=
  ∀ name value, sent.get? name = some value ↔ SetLast configured name value ∨
    ((∀ header ∈ configured, Text.lowerAscii header.1 ≠ name) ∧ headers.get? name = some value)

section SetAll

variable {headers sent : KeyMap String} {configured : List (String × Json)} {key : String}
  {value : Json} {e : ClientError}

theorem not_setLast_nil (name value : String) : ¬SetLast [] name value := by
  rintro ⟨before, key, after, hsplit, -⟩
  simp at hsplit

theorem setLast_cons {name text : String} :
    SetLast ((key, value) :: configured) name text ↔ SetLast configured name text ∨
      (value = .string text ∧ Text.lowerAscii key = name ∧
        ∀ header ∈ configured, Text.lowerAscii header.1 ≠ name) := by
  constructor
  · rintro ⟨before, k, after, hsplit, hname, hafter⟩
    rcases List.cons_eq_append_iff.mp hsplit with ⟨-, hhead⟩ | ⟨before, rfl, hrest⟩
    · obtain ⟨hheader, rfl⟩ := List.cons_eq_cons.mp hhead
      obtain ⟨rfl, hvalue⟩ := Prod.ext_iff.mp hheader
      exact Or.inr ⟨hvalue.symm, hname, hafter⟩
    · exact Or.inl ⟨before, k, after, hrest, hname, hafter⟩
  · rintro (⟨before, k, after, rfl, hname, hafter⟩ | ⟨rfl, hname, hafter⟩)
    · exact ⟨(key, value) :: before, k, after, rfl, hname, hafter⟩
    · exact ⟨[], key, configured, rfl, hname, hafter⟩

/-- What is set first is lost to what is set later and takes the place of what was there before. -/
theorem leaves_cons {text : String} :
    Leaves headers ((key, .string text) :: configured) sent ↔
      Leaves (headers.insert (Text.lowerAscii key) text) configured sent := by
  refine forall_congr' fun name => forall_congr' fun v => iff_congr Iff.rfl ?_
  rw [setLast_cons, List.forall_mem_cons, KeyMap.get?_insert]
  by_cases hname : name = Text.lowerAscii key
  · subst hname
    simp [eq_comm, and_comm]
  · have hother : ¬Text.lowerAscii key = name := fun h => hname h.symm
    simp [hname, hother]

theorem leaves_nil : Leaves headers [] sent ↔ sent = headers := by
  constructor
  · intro h
    apply KeyMap.ext_get?
    intro name
    apply Option.ext
    intro value
    simpa [not_setLast_nil] using h name value
  · rintro rfl name value
    simp [not_setLast_nil]

theorem setAll_cons_of_good {text : String} (hname : Token key) (hvalue : Sendable text) :
    setAll headers ((key, .string text) :: configured) =
      setAll (headers.insert (Text.lowerAscii key) text) configured := by
  rw [setAll, set_of_good hname hvalue]
  rfl

theorem setAll_cons_of_fault (h : Fault key value e) :
    setAll headers ((key, value) :: configured) = .error e := by
  rw [setAll, set_of_fault headers h]
  rfl

/-- Headers that may all be sent leave of each name what was set last. -/
theorem setAll_eq_ok_iff : setAll headers configured = .ok sent ↔
    (∀ header ∈ configured, Good header.1 header.2) ∧ Leaves headers configured sent := by
  induction configured generalizing headers with
  | nil =>
      rw [leaves_nil]
      simp [setAll, eq_comm]
  | cons header configured ih =>
      obtain ⟨key, value⟩ := header
      rw [List.forall_mem_cons]
      rcases good_or_fault key value with hgood | ⟨e, hfault⟩
      · obtain ⟨text, rfl, hname, hvalue⟩ := hgood
        have hgood : Good key (.string text) := ⟨text, rfl, hname, hvalue⟩
        rw [setAll_cons_of_good hname hvalue, ih, leaves_cons]
        simp [hgood]
      · rw [setAll_cons_of_fault hfault]
        simp [not_good_of_fault hfault]

theorem firstFault_cons : FirstFault ((key, value) :: configured) e ↔
    Fault key value e ∨ (Good key value ∧ FirstFault configured e) := by
  constructor
  · rintro ⟨before, k, v, after, hsplit, hbefore, hfault⟩
    rcases List.cons_eq_append_iff.mp hsplit with ⟨-, hhead⟩ | ⟨before, rfl, hrest⟩
    · obtain ⟨hheader, -⟩ := List.cons_eq_cons.mp hhead
      obtain ⟨rfl, rfl⟩ := Prod.ext_iff.mp hheader
      exact Or.inl hfault
    · obtain ⟨hgood, hbefore⟩ := List.forall_mem_cons.mp hbefore
      exact Or.inr ⟨hgood, before, k, v, after, hrest, hbefore, hfault⟩
  · rintro (hfault | ⟨hgood, before, k, v, after, rfl, hbefore, hfault⟩)
    · exact ⟨[], key, value, configured, rfl, by simp, hfault⟩
    · exact ⟨(key, value) :: before, k, v, after, rfl,
        List.forall_mem_cons.mpr ⟨hgood, hbefore⟩, hfault⟩

/-- Of headers that may not be sent the first is reported. -/
theorem setAll_eq_error_iff : setAll headers configured = .error e ↔ FirstFault configured e := by
  induction configured generalizing headers with
  | nil =>
      have hnone : ¬FirstFault [] e := by
        rintro ⟨before, k, v, after, hsplit, -⟩
        simp at hsplit
      simp [setAll, hnone]
  | cons header configured ih =>
      obtain ⟨key, value⟩ := header
      rw [firstFault_cons]
      rcases good_or_fault key value with hgood | ⟨d, hfault⟩
      · obtain ⟨text, rfl, hname, hvalue⟩ := hgood
        have hgood : Good key (.string text) := ⟨text, rfl, hname, hvalue⟩
        have hnone : ¬Fault key (.string text) e := fun h => not_good_of_fault h hgood
        rw [setAll_cons_of_good hname hvalue, ih]
        simp [hgood, hnone]
      · have hunique : Fault key value e ↔ d = e := by
          constructor
          · intro h
            have hset := set_of_fault headers h
            rw [set_of_fault headers hfault] at hset
            exact Except.error.inj hset
          · rintro rfl
            exact hfault
        rw [setAll_cons_of_fault hfault, hunique]
        simp [not_good_of_fault hfault]

theorem exists_setAll_iff : (∃ sent, setAll headers configured = .ok sent) ↔
    ∀ header ∈ configured, Good header.1 header.2 := by
  cases hrun : setAll headers configured with
  | ok sent => simpa using (setAll_eq_ok_iff.mp hrun).1
  | error e =>
      obtain ⟨before, key, value, after, rfl, -, hfault⟩ := setAll_eq_error_iff.mp hrun
      have hbad : ¬∀ header ∈ before ++ (key, value) :: after, Good header.1 header.2 :=
        fun h => not_good_of_fault hfault (h (key, value) (by simp))
      exact iff_of_false (by simp) hbad

end SetAll

/-! ### Headers by key -/

section ByKey

variable {configured : KeyMap Json}

theorem forall_mem_toList {P : String → Json → Prop} :
    (∀ header ∈ configured.toList, P header.1 header.2) ↔
      ∀ key value, configured.get? key = some value → P key value := by
  constructor
  · exact fun h key value hget => h (key, value) (KeyMap.mem_toList.mpr hget)
  · exact fun h header hheader => h header.1 header.2 (KeyMap.mem_toList.mp hheader)

theorem contains_iff_mem {key : String} :
    configured.contains key = true ↔ ∃ header ∈ configured.toList, header.1 = key := by
  rw [← KeyMap.mem_keys]
  exact List.mem_map

/-- What is set last for a name is the value of the greatest key that reads so in small letters. -/
theorem setLast_toList {name text : String} : SetLast configured.toList name text ↔
    ∃ key, configured.get? key = some (.string text) ∧ Text.lowerAscii key = name ∧
      ∀ other, configured.contains other = true → Text.lowerAscii other = name → other ≤ key := by
  have hincreasing : KeysIncrease configured.toList := configured.increasing
  constructor
  · rintro ⟨before, key, after, hsplit, hname, hafter⟩
    rw [hsplit, KeysIncrease, List.pairwise_append] at hincreasing
    refine ⟨key, KeyMap.mem_toList.mp (by simp [hsplit]), hname, ?_⟩
    intro other hother hlower
    obtain ⟨header, hheader, rfl⟩ := contains_iff_mem.mp hother
    rw [hsplit, List.mem_append, List.mem_cons] at hheader
    rcases hheader with hbefore | rfl | hbehind
    · have hless : header.1 < key := hincreasing.2.2 header hbefore _ List.mem_cons_self
      exact String.not_lt.mp fun hgreater =>
        String.lt_irrefl key (String.lt_trans hgreater hless)
    · exact String.le_refl key
    · exact absurd hlower (hafter header hbehind)
  · rintro ⟨key, hkey, hname, hgreatest⟩
    obtain ⟨before, after, hsplit⟩ := List.append_of_mem (KeyMap.mem_toList.mpr hkey)
    refine ⟨before, key, after, hsplit, hname, ?_⟩
    rw [hsplit, KeysIncrease, List.pairwise_append, List.pairwise_cons] at hincreasing
    intro header hheader hlower
    have hless : key < header.1 := hincreasing.2.1.1 header hheader
    have hother : configured.contains header.1 = true :=
      contains_iff_mem.mpr ⟨header, by simp [hsplit, hheader], rfl⟩
    exact absurd (hgreatest header.1 hother hlower) (String.not_le.mpr hless)

theorem exists_setLast {headers : List (String × Json)} (hgood : ∀ h ∈ headers, Good h.1 h.2)
    {name : String} (hset : ∃ header ∈ headers, Text.lowerAscii header.1 = name) :
    ∃ text, SetLast headers name text := by
  induction headers with
  | nil => simp at hset
  | cons first headers ih =>
      obtain ⟨key, value⟩ := first
      obtain ⟨⟨text, hvalue, -⟩, hgood⟩ := List.forall_mem_cons.mp hgood
      by_cases hlater : ∃ header ∈ headers, Text.lowerAscii header.1 = name
      · obtain ⟨last, hlast⟩ := ih hgood hlater
        exact ⟨last, setLast_cons.mpr (Or.inl hlast)⟩
      · have hname : Text.lowerAscii key = name := by
          obtain ⟨header, hheader, hname⟩ := hset
          rcases List.mem_cons.mp hheader with rfl | hheader
          · exact hname
          · exact absurd ⟨header, hheader, hname⟩ hlater
        refine ⟨text, setLast_cons.mpr (Or.inr ⟨hvalue, hname, ?_⟩)⟩
        exact fun header hheader hlower => hlater ⟨header, hheader, hlower⟩

end ByKey

/-! ### The key for the search engine -/

section Key

variable {apiKey : Option String}

/-- The header of a key for the search engine, if there is one. -/
def keyHeader : Option String → KeyMap String
  | none => ∅
  | some key => (∅ : KeyMap String).insert "authorization" ("ApiKey " ++ key)

theorem isValue_apiKey_iff {key : String} : isValue ("ApiKey " ++ key) = true ↔ Sendable key := by
  have hscheme : "ApiKey ".toList.all isValueChar = true := by decide
  rw [← isValue_iff]
  unfold isValue
  rw [String.toList_append, List.all_append, hscheme, Bool.true_and]

theorem ofKey_of_sendable (h : ∀ key, apiKey = some key → Sendable key) :
    ofKey apiKey = .ok (keyHeader apiKey) := by
  cases apiKey with
  | none => rfl
  | some key =>
      have hvalue := isValue_apiKey_iff.mpr (h key rfl)
      simp [ofKey, keyHeader, hvalue]

theorem ofKey_of_not_sendable {key : String} (h : ¬Sendable key) :
    ofKey (some key) = .error .headerValue := by
  have hvalue := mt isValue_apiKey_iff.mp h
  simp [ofKey, hvalue]

theorem get?_keyHeader {name value : String} : (keyHeader apiKey).get? name = some value ↔
    name = "authorization" ∧ ∃ key, apiKey = some key ∧ value = "ApiKey " ++ key := by
  cases apiKey with
  | none => simp [keyHeader, KeyMap.get?_empty]
  | some key =>
      rw [keyHeader, KeyMap.get?_insert, KeyMap.get?_empty]
      simp [eq_comm]

end Key

/-! ### All headers -/

/-- What is sent under a name: the value of the configured header whose key is the greatest that reads so
in small letters, or else, under the name for it, the key for the search engine. -/
inductive SentAs (apiKey : Option String) (configured : KeyMap Json) : String → String → Prop
  | configured {key text : String} (hkey : configured.get? key = some (.string text))
      (hgreatest : ∀ other, configured.contains other = true →
        Text.lowerAscii other = Text.lowerAscii key → other ≤ key) :
      SentAs apiKey configured (Text.lowerAscii key) text
  | apiKey {key : String} (hkey : apiKey = some key)
      (hnone : ∀ other, configured.contains other = true →
        Text.lowerAscii other ≠ "authorization") :
      SentAs apiKey configured "authorization" ("ApiKey " ++ key)

/-- The headers that are sent: there is one for each name of a configured header, in small letters, and
one for the key, and each has the value that is sent under its name. -/
structure Sends (apiKey : Option String) (configured : KeyMap Json) (sent : KeyMap String) : Prop where
  names : ∀ name, sent.contains name = true ↔
    (∃ key, configured.contains key = true ∧ Text.lowerAscii key = name) ∨
      (name = "authorization" ∧ apiKey ≠ none)
  values : ∀ name value, sent.get? name = some value ↔ SentAs apiKey configured name value

section All

variable {apiKey : Option String} {configured : KeyMap Json} {sent : KeyMap String}

theorem all_of_sendable (h : ∀ key, apiKey = some key → Sendable key) :
    all apiKey configured.toList = setAll (keyHeader apiKey) configured.toList := by
  rw [all, ofKey_of_sendable h]
  rfl

theorem all_of_not_sendable {key : String} (h : ¬Sendable key) :
    all (some key) configured.toList = .error .headerValue := by
  rw [all, ofKey_of_not_sendable h]
  rfl

theorem sentAs_iff {name value : String} : SentAs apiKey configured name value ↔
    SetLast configured.toList name value ∨
      ((∀ header ∈ configured.toList, Text.lowerAscii header.1 ≠ name) ∧
        (keyHeader apiKey).get? name = some value) := by
  constructor
  · intro h
    cases h with
    | configured hkey hgreatest => exact Or.inl (setLast_toList.mpr ⟨_, hkey, rfl, hgreatest⟩)
    | apiKey hkey hnone =>
        refine Or.inr ⟨fun header hheader => ?_, get?_keyHeader.mpr ⟨rfl, _, hkey, rfl⟩⟩
        exact hnone header.1 (contains_iff_mem.mpr ⟨header, hheader, rfl⟩)
  · rintro (hlast | ⟨hnone, hget⟩)
    · obtain ⟨key, hkey, rfl, hgreatest⟩ := setLast_toList.mp hlast
      exact .configured hkey hgreatest
    · obtain ⟨rfl, key, hkey, rfl⟩ := get?_keyHeader.mp hget
      refine .apiKey hkey fun other hother => ?_
      obtain ⟨header, hheader, rfl⟩ := contains_iff_mem.mp hother
      exact hnone header hheader

theorem sends_of_leaves (hgood : ∀ header ∈ configured.toList, Good header.1 header.2)
    (h : Leaves (keyHeader apiKey) configured.toList sent) : Sends apiKey configured sent := by
  have hvalues : ∀ name value, sent.get? name = some value ↔ SentAs apiKey configured name value :=
    fun name value => (h name value).trans sentAs_iff.symm
  refine ⟨fun name => ?_, hvalues⟩
  unfold KeyMap.contains
  rw [Option.isSome_iff_exists]
  constructor
  · rintro ⟨value, hget⟩
    cases (hvalues name value).mp hget with
    | configured hkey hgreatest => exact Or.inl ⟨_, Option.isSome_iff_exists.mpr ⟨_, hkey⟩, rfl⟩
    | apiKey hkey hnone => exact Or.inr ⟨rfl, by simp [hkey]⟩
  · intro hname
    by_cases hset : ∃ header ∈ configured.toList, Text.lowerAscii header.1 = name
    · obtain ⟨text, hlast⟩ := exists_setLast hgood hset
      exact ⟨text, (h name text).mpr (Or.inl hlast)⟩
    · have hnone : ∀ header ∈ configured.toList, Text.lowerAscii header.1 ≠ name :=
        fun header hheader hlower => hset ⟨header, hheader, hlower⟩
      rcases hname with ⟨key, hkey, hlower⟩ | ⟨rfl, hkey⟩
      · obtain ⟨header, hheader, rfl⟩ := contains_iff_mem.mp hkey
        exact absurd hlower (hnone header hheader)
      · obtain ⟨key, rfl⟩ := Option.ne_none_iff_exists'.mp hkey
        exact ⟨_, (h _ _).mpr (Or.inr ⟨hnone, get?_keyHeader.mpr ⟨rfl, key, rfl, rfl⟩⟩)⟩

end All

/-- Headers are assembled exactly if the key for the search engine, if there is one, and all configured
headers may be sent; otherwise the first fault is reported, that of the key before those of the configured
headers by increasing key.  There is then one header for each name in small letters, with the value of the
last configured header that reads so, or with the key where no configured header takes its name. -/
theorem all_sends (apiKey : Option String) (configured : KeyMap Json) :
    ((∃ sent, all apiKey configured.toList = .ok sent) ↔
      (∀ key, apiKey = some key → Sendable key) ∧
        ∀ key value, configured.get? key = some value → Good key value) ∧
    (∀ e, all apiKey configured.toList = .error e ↔
      (∃ key, apiKey = some key ∧ ¬Sendable key ∧ e = .headerValue) ∨
        ((∀ key, apiKey = some key → Sendable key) ∧ FirstFault configured.toList e)) ∧
    ∀ sent, all apiKey configured.toList = .ok sent → Sends apiKey configured sent := by
  rw [← forall_mem_toList]
  by_cases hkey : ∀ key, apiKey = some key → Sendable key
  · have hnone : ∀ e, ¬∃ key, apiKey = some key ∧ ¬Sendable key ∧ e = ClientError.headerValue :=
      fun e ⟨key, hsome, hbad, _⟩ => hbad (hkey key hsome)
    rw [all_of_sendable hkey]
    refine ⟨?succeeds, fun e => ?fails, fun sent hsent => ?sends⟩
    case succeeds =>
      rw [exists_setAll_iff]
      exact (and_iff_right hkey).symm
    case fails =>
      rw [setAll_eq_error_iff, or_iff_right (hnone e)]
      exact (and_iff_right hkey).symm
    case sends =>
      obtain ⟨hgood, hleaves⟩ := setAll_eq_ok_iff.mp hsent
      exact sends_of_leaves hgood hleaves
  · have hbad : ∃ key, apiKey = some key ∧ ¬Sendable key := by
      simpa using hkey
    obtain ⟨key, rfl, hbad⟩ := hbad
    rw [all_of_not_sendable hbad]
    refine ⟨?succeeds, fun e => ?fails, fun sent hsent => ?sends⟩
    case succeeds => exact iff_of_false (by simp) fun h => hkey h.1
    case fails => simp [hbad, eq_comm]
    case sends => cases hsent

/-- Three headers of two names, of which one is that of the key. -/
def collidingHeaders : KeyMap Json :=
  .ofList [("x-client", .string "b"), ("X-Client", .string "a"), ("Authorization", .string "Basic c")]

/-- The last of two spellings is sent, and a configured header in place of the key. -/
theorem all_sends_collidingHeaders :
    ∃ sent, all (some "k") collidingHeaders.toList = .ok sent ∧
      Sends (some "k") collidingHeaders sent ∧
      sent.toList = [("authorization", "Basic c"), ("x-client", "b")] := by
  have hrun : ∃ sent, all (some "k") collidingHeaders.toList = .ok sent ∧
      sent.toList = [("authorization", "Basic c"), ("x-client", "b")] := ⟨_, rfl, by decide⟩
  obtain ⟨sent, hsent, hlist⟩ := hrun
  exact ⟨sent, hsent, (all_sends (some "k") collidingHeaders).2.2 sent hsent, hlist⟩

end Header
end Lookalike
