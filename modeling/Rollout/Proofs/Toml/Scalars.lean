import Mathlib.Data.List.Basic
import Rollout.Proofs.Toml.Strings
import Rollout.Toml.Reader

/-!
# Proofs/Toml/Scalars — every value on a line is read back as it was written

A value behind the sign of a pair ends with its line.  A number is a run of decimal digits, which no
date, marker of a radix or superfluous zero can be mistaken for (`scalar?_toString`).  What is read
back is the value itself, but for the sign that every integer has (`reproduced`, `value?_of_plain`).
-/

namespace Rollout.Toml

variable {c : Char} {ds rest : List Char}

/-! ## Numbers -/

/-- Only zero begins with the digit zero. -/
theorem eq_zero_of_toDigits {n : Nat} (h : Nat.toDigits 10 n = '0' :: ds) : n = 0 ∧ ds = [] := by
  induction n using Nat.strongRecOn generalizing ds with
  | ind n ih =>
    by_cases hn : n < 10
    · rw [Nat.toDigits_of_lt_base hn] at h
      have hdigits : ∀ n < 10, Nat.digitChar n = '0' → n = 0 := by decide
      obtain ⟨hhead, rfl⟩ := List.cons.inj h
      exact ⟨hdigits n hn hhead, rfl⟩
    · rw [Nat.toDigits_of_base_le (by decide) (Nat.le_of_not_lt hn)] at h
      cases hmore : Nat.toDigits 10 (n / 10) with
      | nil => exact absurd hmore Nat.toDigits_ne_nil
      | cons d more =>
        rw [hmore] at h
        obtain ⟨rfl, -⟩ := List.cons.inj h
        obtain ⟨hzero, -⟩ := ih (n / 10) (by omega) hmore
        omega

theorem charValue?_of_isDigit (h : c.isDigit = true) : Hex.charValue? c = some (c.toNat - 48) := by
  obtain ⟨hlow, hhigh⟩ : 48 ≤ c.toNat ∧ c.toNat ≤ 57 := Char.isDigit_iff_toNat.1 h
  have hbyte : (UInt8.ofNat c.toNat).toNat = c.toNat := by
    rw [UInt8.toNat_ofNat']
    omega
  rw [Hex.charValue?, if_pos (by omega), Hex.digitValue?]
  simp [hbyte, hlow, hhigh]

/-- The digits of a number stand for it. -/
theorem numeral_toDigits (n : Nat) : numeral 10 (Nat.toDigits 10 n) = n := by
  conv => rhs; rw [← Nat.ofDigitChars_ten_toDigits (n := n), Nat.ofDigitChars_eq_foldl]
  refine List.foldl_ext _ _ 0 fun n c hc => ?_
  rw [charValue?_of_isDigit (Nat.isDigit_of_mem_toDigits (by decide) (by decide) hc)]
  rfl

/-- Digits are read up to the end of the line. -/
theorem digits_of_line (h : ∀ c ∈ ds, c.isDigit = true) (started : Bool) :
    digitsFrom Char.isDigit started (ds ++ '\n' :: rest) = (ds, '\n' :: rest) := by
  induction ds generalizing started with
  | nil =>
    cases rest with
    | nil => rfl
    | cons d rest => simp [digitsFrom, show Char.isDigit '\n' = false from rfl]
  | cons c ds ih =>
    have hc : c.isDigit = true := h c (List.mem_cons_self ..)
    have hmore := ih (fun c hc => h c (List.mem_cons_of_mem _ hc)) true
    cases ds with
    | nil =>
      rw [List.nil_append] at hmore
      simp [digitsFrom, hc, hmore]
    | cons d ds =>
      rw [List.cons_append] at hmore
      simp [digitsFrom, hc, hmore]

/-! ### Dates and times -/

/-- Behind the digits of a text stands the same character, however they are counted. -/
theorem head_of_digits {other : List Char} {c d : Char} (hds : ∀ c ∈ ds, c.isDigit = true)
    (hother : ∀ c ∈ other, c.isDigit = true) (hc : c.isDigit = false) (hd : d.isDigit = false)
    {rest more : List Char} (h : ds ++ c :: rest = other ++ d :: more) : c = d := by
  have hdrop := congrArg (List.dropWhile Char.isDigit) h
  rw [List.dropWhile_append_of_pos hds, List.dropWhile_append_of_pos hother,
    List.dropWhile_cons_of_neg (by simp [hc]), List.dropWhile_cons_of_neg (by simp [hd])] at hdrop
  exact (List.cons.inj hdrop).1

/-- A field of a date is read off digits. -/
theorem field?_eq_some {count low high n : Nat} {text : List Char}
    (h : field? count low high text = some (n, rest)) :
    ∃ ds, (∀ c ∈ ds, c.isDigit = true) ∧ text = ds ++ rest := by
  rw [field?] at h
  dsimp only at h
  split_ifs at h with hdigits hbounds
  cases h
  exact ⟨text.take count, by simpa using hdigits.2, (List.take_append_drop count text).symm⟩

theorem char?_eq_some {text : List Char} (h : char? c text = some rest) : text = c :: rest := by
  cases text with
  | nil => cases h
  | cons d more =>
    rw [char?] at h
    split_ifs at h with hc
    rw [hc, Option.some.inj h]

/-- Behind a field that is read off a line of digits stands no mark. -/
theorem char?_ne_some_of_field? (h : ∀ c ∈ ds, c.isDigit = true) {count low high n : Nat}
    {more after : List Char} (hfield : field? count low high (ds ++ '\n' :: rest) = some (n, more))
    (hc : c.isDigit = false) (hline : c ≠ '\n') : char? c more ≠ some after := by
  intro hchar
  obtain ⟨other, hother, htext⟩ := field?_eq_some hfield
  rw [char?_eq_some hchar] at htext
  exact hline (head_of_digits h hother rfl hc htext).symm

theorem date?_of_digits (h : ∀ c ∈ ds, c.isDigit = true) (rest : List Char) :
    date? (ds ++ '\n' :: rest) = none := by
  rw [Option.eq_none_iff_forall_ne_some]
  intro after hafter
  simp only [date?, Option.bind_eq_bind, Option.bind_eq_some_iff] at hafter
  obtain ⟨⟨n, more⟩, hfield, more', hchar, -⟩ := hafter
  exact char?_ne_some_of_field? h hfield rfl (by decide) hchar

theorem time?_of_digits (h : ∀ c ∈ ds, c.isDigit = true) (rest : List Char) :
    time? (ds ++ '\n' :: rest) = none := by
  rw [Option.eq_none_iff_forall_ne_some]
  intro after hafter
  simp only [time?, Option.bind_eq_bind, Option.bind_eq_some_iff] at hafter
  obtain ⟨⟨n, more⟩, hfield, more', hchar, -⟩ := hafter
  exact char?_ne_some_of_field? h hfield rfl (by decide) hchar

/-- A line of digits is no date and no time. -/
theorem moment?_of_digits (h : ∀ c ∈ ds, c.isDigit = true) (rest : List Char) :
    moment? (ds ++ '\n' :: rest) = none := by
  rw [moment?, date?_of_digits h, time?_of_digits h]
  rfl

/-! ### Scalars -/

theorem scalar?_of_digits (hne : ds ≠ []) (h : ∀ c ∈ ds, c.isDigit = true)
    (hzero : ∀ more, ds = '0' :: more → more = []) :
    scalar? (ds ++ '\n' :: rest) = decimal? (ds ++ '\n' :: rest) := by
  cases ds with
  | nil => exact absurd rfl hne
  | cons c more =>
    have hmoment := moment?_of_digits h rest
    rw [List.cons_append] at hmoment ⊢
    have hhead : ∀ {d text}, d.isDigit = false → c :: (more ++ '\n' :: rest) ≠ d :: text := by
      intro d text hd htext
      rw [← (List.cons.inj htext).1, h c (List.mem_cons_self ..)] at hd
      cases hd
    have hmarker : ∀ {d text}, d ≠ '\n' → c :: (more ++ '\n' :: rest) ≠ '0' :: d :: text := by
      intro d text hd htext
      obtain ⟨rfl, htail⟩ := List.cons.inj htext
      rw [hzero more rfl] at htail
      exact hd (List.cons.inj htail).1.symm
    rw [scalar?, hmoment]
    · exact fun _ => hhead rfl
    · exact fun _ => hhead rfl
    · exact fun _ => hmarker (by decide)
    · exact fun _ => hmarker (by decide)
    · exact fun _ => hmarker (by decide)
    · exact fun _ => hhead rfl
    · exact fun _ => hhead rfl

theorem sign_of_digit (h : c.isDigit = true) : sign (c :: rest) = (false, c :: rest) := by
  have hminus : c ≠ '-' := by rintro rfl; cases h
  have hplus : c ≠ '+' := by rintro rfl; cases h
  rw [sign]
  · rintro _ ⟨⟩
    exact hminus rfl
  · rintro _ ⟨⟩
    exact hplus rfl

theorem decimal?_of_digits {ds : List Char} (hds : ∀ c' ∈ c :: ds, c'.isDigit = true) (hc : c ≠ '0')
    (hn : numeral 10 (c :: ds) < Value.signedBound) (rest : List Char) :
    decimal? (c :: (ds ++ '\n' :: rest)) = some (.signed (numeral 10 (c :: ds)), '\n' :: rest) := by
  have hdigit : c.isDigit = true := hds c (List.mem_cons_self ..)
  have hi : c ≠ 'i' := by rintro rfl; cases hdigit
  have hnan : c ≠ 'n' := by rintro rfl; cases hdigit
  have hread : digits Char.isDigit (c :: (ds ++ '\n' :: rest)) = (c :: ds, '\n' :: rest) :=
    digits_of_line hds false
  simp [decimal?, sign_of_digit hdigit, hi, hnan, hc, hread, fraction?, exponent?, hn]

/-- **A number is read back as it was written.** -/
theorem scalar?_toString {n : Nat} (hn : n < Value.signedBound) (rest : List Char) :
    scalar? ((toString n).toList ++ '\n' :: rest) = some (.signed n, '\n' :: rest) := by
  have hdigits : (toString n).toList = Nat.toDigits 10 n := Nat.toList_repr
  rw [hdigits, scalar?_of_digits Nat.toDigits_ne_nil (fun c => Nat.isDigit_of_mem_toDigits (by decide) (by decide))
    fun more h => (eq_zero_of_toDigits h).2]
  have hvalue := numeral_toDigits n
  cases hds : Nat.toDigits 10 n with
  | nil => exact absurd hds Nat.toDigits_ne_nil
  | cons c more =>
    rw [hds] at hvalue
    by_cases hc : c = '0'
    · subst hc
      obtain ⟨rfl, rfl⟩ := eq_zero_of_toDigits hds
      rfl
    · have hall : ∀ c' ∈ c :: more, c'.isDigit = true := by
        rw [← hds]
        exact fun c => Nat.isDigit_of_mem_toDigits (by decide) (by decide)
      have hread := decimal?_of_digits hall hc (by rwa [hvalue]) rest
      rwa [hvalue] at hread

/-! ## Values -/

/-- Fields in the order in which they are written: the plain pairs before all tables. -/
def arranged (fields : List (String × Value)) : List (String × Value) :=
  fields.filter (fun field => !isHeaded field.2) ++ fields.filter (fun field => isHeaded field.2)

mutual

/-- **What a value is read back as**: the integers have a sign, and the fields of every table are in
the order in which they are written. -/
def reproduced : Value → Value
  | .null => .null
  | .bool b => .bool b
  | .unsigned n => .signed n
  | .signed i => .signed i
  | .real bits => .real bits
  | .moment text => .moment text
  | .string s => .string s
  | .array items => .array (reproducedItems items)
  | .object fields => .object (arranged (reproducedFields fields))

def reproducedItems : List Value → List Value
  | [] => []
  | v :: rest => reproduced v :: reproducedItems rest

def reproducedFields : List (String × Value) → List (String × Value)
  | [] => []
  | (key, v) :: rest => (key, reproduced v) :: reproducedFields rest

end

theorem reproduced_string (s : String) : reproduced (.string s) = .string s := by
  rw [reproduced]

theorem reproduced_bool (b : Bool) : reproduced (.bool b) = .bool b := by
  rw [reproduced]

theorem reproducedItems_eq (items : List Value) : reproducedItems items = items.map reproduced := by
  induction items with
  | nil => rfl
  | cons v rest ih => rw [reproducedItems, ih, List.map_cons]

theorem reproducedFields_eq (fields : List (String × Value)) :
    reproducedFields fields = fields.map fun field => (field.1, reproduced field.2) := by
  induction fields with
  | nil => rfl
  | cons field rest ih =>
    obtain ⟨key, v⟩ := field
    rw [reproducedFields, ih, List.map_cons]

theorem isTableList_reproduced (items : List Value) :
    isTableList (reproducedItems items) = isTableList items := by
  rw [isTableList, isTableList, reproducedItems_eq, List.all_map]
  congr 1
  · simp
  · congr 1
    funext v
    cases v <;> rw [Function.comp_apply, reproduced]

/-- What stands under headings is read back from there. -/
theorem isHeaded_reproduced (v : Value) : isHeaded (reproduced v) = isHeaded v := by
  cases v with
  | array items =>
    rw [reproduced]
    exact isTableList_reproduced items
  | unsigned n =>
    rw [reproduced]
    rfl
  | object fields =>
    rw [reproduced]
    rfl
  | _ => rw [reproduced]

/-- A plain value that a document may hold. -/
inductive Plain : Value → Prop where
  | bool (b : Bool) : Plain (.bool b)
  | number (n : Nat) : Plain (.unsigned n)
  | string (s : String) : Plain (.string s)
  | none : Plain (.array [])

theorem value?_of_scalar {text : List Char} {fuel depth : Nat} (hlist : text.head? ≠ some '[')
    (htable : text.head? ≠ some '\x7b') :
    value? (fuel + 1) depth text = scalar? text := by
  rw [value?]
  · rintro rest rfl
    exact hlist rfl
  · rintro rest rfl
    exact htable rfl

theorem head?_writeString (s : String) :
    (writeString s).toList.head? = some '"' ∨ (writeString s).toList.head? = some '\'' := by
  rw [writeString, String.toList_ofList]
  cases formOf s.toList <;> simp [List.replicate_succ]

/-- Behind a number, the line begins with a digit. -/
theorem isDigit_head_toString (n : Nat) :
    ∃ c more, (toString n).toList = c :: more ∧ c.isDigit = true := by
  have hdigits : (toString n).toList = Nat.toDigits 10 n := Nat.toList_repr
  cases hds : Nat.toDigits 10 n with
  | nil => exact absurd hds Nat.toDigits_ne_nil
  | cons c more =>
    exact ⟨c, more, hdigits.trans hds,
      Nat.isDigit_of_mem_toDigits (by decide) (by decide) (hds ▸ List.mem_cons_self ..)⟩

theorem scalar?_writeString (s : String) :
    scalar? ((writeString s).toList ++ '\n' :: rest) = some (.string s, '\n' :: rest) := by
  have hread := string?_writeString s rest
  rcases head?_writeString s with h | h <;> obtain ⟨more, hmore⟩ := List.head?_eq_some_iff.1 h <;>
    rw [hmore, List.cons_append] at hread ⊢
  · rw [scalar?, hread]
    rfl
  · rw [scalar?, hread]
    rfl

/-- **A plain value is read back as it was written.** -/
theorem value?_of_plain {v : Value} {text : String} (hplain : Plain v) (h : plain? v = some text)
    {fuel depth : Nat} (hdepth : 2 ≤ depth) :
    value? (fuel + 2) depth (text.toList ++ '\n' :: rest) = some (reproduced v, '\n' :: rest) := by
  cases hplain with
  | bool b =>
    obtain rfl := Option.some.inj h
    cases b with
    | true => exact (value?_of_scalar (by simp) (by simp)).trans (by rw [reproduced]; rfl)
    | false => exact (value?_of_scalar (by simp) (by simp)).trans (by rw [reproduced]; rfl)
  | number n =>
    rw [plain?] at h
    split_ifs at h with hn
    obtain rfl := Option.some.inj h
    obtain ⟨c, more, hmore, hc⟩ := isDigit_head_toString n
    have hread := scalar?_toString hn rest
    rw [hmore] at hread ⊢
    rw [value?_of_scalar, hread, reproduced]
    · rintro ⟨⟩; cases hc
    · rintro ⟨⟩; cases hc
  | string s =>
    obtain rfl := Option.some.inj h
    rw [value?_of_scalar, scalar?_writeString, reproduced]
    · rcases head?_writeString s with h | h <;> simp [h]
    · rcases head?_writeString s with h | h <;> simp [h]
  | none =>
    obtain rfl := Option.some.inj h
    rw [show "[]".toList ++ '\n' :: rest = '[' :: ']' :: '\n' :: rest from rfl, value?,
      if_neg (by omega), items?, reproduced, reproducedItems]
    rfl

end Rollout.Toml
