import Mathlib.Tactic.SplitIfs
import Rollout.Toml.Scalar
import Rollout.Toml.Writer

/-!
# Proofs/Toml/Strings — every string is read back as it was written

Whatever the form of a string, the text between its quotes spells its characters one after the other
(`Spells`): a character stands for itself or is escaped, and where a string may have several lines,
line ends and up to two quotes in a row stand for themselves as well.  The readers read every text
that spells something, and the writer writes no other (`string?_writeString`).
-/

namespace Rollout.Toml

variable {quote c : Char} {escapes multiline : Bool} {run : Nat} {cs text rest : List Char}

/-! ## Spelling -/

/-- **The text spells the characters** between quotes of the given kind, behind so many quotes in a
row that stand for themselves. -/
inductive Spells (quote : Char) (escapes multiline : Bool) : Nat → List Char → List Char → Prop where
  | nil {run : Nat} : Spells quote escapes multiline run [] []
  | plain {run : Nat} {c : Char} {cs text : List Char} (hplain : isPlain c = true)
      (hquote : c ≠ quote) (hescape : escapes = true → c ≠ '\\')
      (h : Spells quote escapes multiline 0 cs text) :
      Spells quote escapes multiline run (c :: cs) (c :: text)
  | escape {run : Nat} {c : Char} {cs text : List Char} (written : List Char)
      (hescapes : escapes = true)
      (hread : ∀ rest, escape? (written ++ rest) = some (c, rest))
      (h : Spells quote escapes multiline 0 cs text) :
      Spells quote escapes multiline run (c :: cs) ('\\' :: (written ++ text))
  | newline {run : Nat} {cs text : List Char} (hmultiline : multiline = true)
      (h : Spells quote escapes multiline 0 cs text) :
      Spells quote escapes multiline run ('\n' :: cs) ('\n' :: text)
  | quote {run : Nat} {cs text : List Char} (hmultiline : multiline = true) (hrun : run < 2)
      (h : Spells quote escapes multiline (run + 1) cs text) :
      Spells quote escapes multiline run (quote :: cs) (quote :: text)

/-! ## Reading strings of one line -/

theorem basic?_of_spells (h : Spells '"' true false run cs text) {fuel : Nat} {done : List Char}
    (hfuel : text.length < fuel) :
    basic? fuel done (text ++ '"' :: rest) = some (String.ofList (done.reverse ++ cs), rest) := by
  induction h generalizing fuel done with
  | nil =>
    obtain ⟨fuel, rfl⟩ := Nat.exists_eq_add_one.2 (Nat.zero_lt_of_lt hfuel)
    simp [basic?]
  | plain hplain hquote hescape h ih =>
    obtain ⟨fuel, rfl⟩ := Nat.exists_eq_add_one.2 (Nat.zero_lt_of_lt hfuel)
    rw [List.cons_append, basic?, if_neg hquote, if_neg (hescape rfl), if_pos hplain,
      ih (by simp at hfuel; omega)]
    simp
  | escape written hescapes hread h ih =>
    obtain ⟨fuel, rfl⟩ := Nat.exists_eq_add_one.2 (Nat.zero_lt_of_lt hfuel)
    rw [List.cons_append, basic?, if_neg (by decide), if_pos rfl, List.append_assoc, hread]
    dsimp only
    rw [ih (by simp at hfuel; omega)]
    simp
  | newline hmultiline => cases hmultiline
  | quote hmultiline => cases hmultiline

theorem literal?_of_spells (h : Spells '\'' false false run cs text) {done : List Char} :
    literal? done (text ++ '\'' :: rest) = some (String.ofList (done.reverse ++ cs), rest) := by
  induction h generalizing done with
  | nil => simp [literal?]
  | plain hplain hquote hescape h ih =>
    rw [List.cons_append, literal?, if_neg hquote, if_pos hplain, ih]
    simp
  | escape _ hescapes => cases hescapes
  | newline hmultiline => cases hmultiline
  | quote hmultiline => cases hmultiline

/-! ## Reading strings of several lines -/

/-- A spelled text begins with at most two quotes, and if there is nothing else in it, they stand for
themselves. -/
theorem quotes_of_spells (h : Spells quote escapes multiline run cs text)
    (hslash : quote ≠ '\\') (hline : quote ≠ '\n') (hrun : run ≤ 2) :
    (∃ k, run + k ≤ 2 ∧ text = List.replicate k quote ∧ cs = List.replicate k quote) ∨
      ∃ k d more, run + k ≤ 2 ∧ text = List.replicate k quote ++ d :: more ∧ d ≠ quote := by
  induction h with
  | nil => exact .inl ⟨0, hrun, rfl, rfl⟩
  | plain hplain hquote hescape h ih => exact .inr ⟨0, _, _, hrun, rfl, hquote⟩
  | escape written hescapes hread h ih => exact .inr ⟨0, _, _, hrun, rfl, hslash.symm⟩
  | newline hmultiline h ih => exact .inr ⟨0, _, _, hrun, rfl, hline.symm⟩
  | quote hmultiline hlt h ih =>
    rcases ih hlt with ⟨k, hk, rfl, rfl⟩ | ⟨k, d, more, hk, rfl, hd⟩
    · exact .inl ⟨k + 1, by omega, rfl, rfl⟩
    · exact .inr ⟨k + 1, d, more, by omega, rfl, hd⟩

theorem length_takeWhile_replicate {k : Nat} (hrest : rest.head? ≠ some quote) :
    ((List.replicate k quote ++ rest).takeWhile (· = quote)).length = k := by
  induction k with
  | zero =>
    cases rest with
    | nil => rfl
    | cons d rest =>
      have hd : d ≠ quote := by simpa using hrest
      simp [hd]
  | succ k ih => simpa [List.replicate_succ] using ih

/-- The quotes that close a string, with up to two in front of them that belong to it. -/
theorem multiline?_closing (escapes : Bool) (k fuel : Nat) (done : List Char) (hk : k ≤ 2)
    (hrest : rest.head? ≠ some quote) :
    multiline? quote escapes (fuel + 1) done (List.replicate (k + 3) quote ++ rest) =
      some (String.ofList (done.reverse ++ List.replicate k quote), rest) := by
  have hclosing : closing? quote (List.replicate (k + 3) quote ++ rest) = some (k, rest) := by
    rw [closing?, length_takeWhile_replicate hrest]
    simp only [if_neg (show ¬ k + 3 < 3 by omega), if_neg (show ¬ 5 < k + 3 by omega)]
    rw [show k + 3 - 3 = k by omega, List.drop_left' (List.length_replicate ..)]
  rw [List.replicate_succ, List.cons_append] at hclosing ⊢
  rw [multiline?, if_pos rfl, hclosing]

/-- Fewer than three quotes in a row stand for themselves. -/
theorem multiline?_quote (escapes : Bool) (k fuel : Nat) (done rest : List Char) (hk : k < 2)
    (hrest : rest.head? ≠ some quote) :
    multiline? quote escapes (fuel + 1) done (quote :: (List.replicate k quote ++ rest)) =
      multiline? quote escapes fuel (quote :: done) (List.replicate k quote ++ rest) := by
  have hrun := length_takeWhile_replicate (k := k + 1) hrest
  rw [List.replicate_succ, List.cons_append] at hrun
  have hclosing : closing? quote (quote :: (List.replicate k quote ++ rest)) = none := by
    rw [closing?, hrun]
    exact if_pos (by omega)
  rw [multiline?, if_pos rfl, hclosing]
  dsimp only
  rw [hrun, if_pos (by omega)]

theorem newline?_of_plain (h : isPlain c = true) : newline? (c :: rest) = none := by
  have hline : c ≠ '\n' := by rintro rfl; cases h
  have hreturn : c ≠ '\r' := by rintro rfl; cases h
  rw [newline?]
  · rintro _ ⟨⟩
    exact hline rfl
  · rintro _ ⟨⟩
    exact hreturn rfl

/-- A quote in a spelled text stands for itself, or closes the string together with the quotes
behind it. -/
theorem multiline?_cons_quote (h : Spells quote escapes true (run + 1) cs text) (fuel : Nat)
    (done : List Char) (hslash : quote ≠ '\\') (hline : quote ≠ '\n') (hrun : run < 2)
    (hrest : rest.head? ≠ some quote)
    (hread : multiline? quote escapes fuel (quote :: done)
      (text ++ (List.replicate 3 quote ++ rest)) =
        some (String.ofList ((quote :: done).reverse ++ cs), rest)) :
    multiline? quote escapes (fuel + 1) done
        (quote :: text ++ (List.replicate 3 quote ++ rest)) =
      some (String.ofList (done.reverse ++ quote :: cs), rest) := by
  rcases quotes_of_spells h hslash hline hrun with
    ⟨k, hk, rfl, rfl⟩ | ⟨k, d, more, hk, rfl, hd⟩
  · have hclosing := multiline?_closing escapes (k + 1) fuel done (by omega) hrest
    rw [← List.replicate_append_replicate, List.append_assoc] at hclosing
    exact hclosing
  · have hquote := multiline?_quote escapes k fuel done
      (d :: more ++ (List.replicate 3 quote ++ rest)) (by omega)
      (fun hhead => hd (Option.some.inj hhead))
    rw [List.append_assoc] at hread
    rw [List.cons_append, List.append_assoc, hquote, hread, List.reverse_cons, List.append_assoc]
    rfl

theorem multiline?_of_spells (h : Spells quote escapes true run cs text) (fuel : Nat)
    (done : List Char) (hslash : quote ≠ '\\') (hline : quote ≠ '\n') (hrun : run ≤ 2)
    (hrest : rest.head? ≠ some quote) (hfuel : text.length < fuel) :
    multiline? quote escapes fuel done (text ++ (List.replicate 3 quote ++ rest)) =
      some (String.ofList (done.reverse ++ cs), rest) := by
  induction h generalizing fuel done with
  | nil =>
    obtain ⟨fuel, rfl⟩ := Nat.exists_eq_add_one.2 (Nat.zero_lt_of_lt hfuel)
    simpa using multiline?_closing escapes 0 fuel done (Nat.zero_le 2) hrest
  | plain hplain hquote hescape h ih =>
    obtain ⟨fuel, rfl⟩ := Nat.exists_eq_add_one.2 (Nat.zero_lt_of_lt hfuel)
    rw [List.cons_append, multiline?, if_neg hquote, if_neg fun hesc => hescape hesc.1 hesc.2,
      newline?_of_plain hplain]
    dsimp only
    rw [if_pos hplain, ih fuel _ (Nat.zero_le 2) (by simp at hfuel; omega)]
    simp
  | escape written hescapes hread h ih =>
    obtain ⟨fuel, rfl⟩ := Nat.exists_eq_add_one.2 (Nat.zero_lt_of_lt hfuel)
    rw [List.cons_append, multiline?, if_neg hslash.symm, if_pos ⟨hescapes, rfl⟩,
      List.append_assoc, hread]
    dsimp only
    rw [ih fuel _ (Nat.zero_le 2) (by simp at hfuel; omega)]
    simp
  | @newline run cs text hmultiline h ih =>
    obtain ⟨fuel, rfl⟩ := Nat.exists_eq_add_one.2 (Nat.zero_lt_of_lt hfuel)
    rw [List.cons_append, multiline?, if_neg hline.symm, if_neg (by simp)]
    rw [show newline? ('\n' :: (text ++ (List.replicate 3 quote ++ rest))) = some _ from rfl]
    dsimp only
    rw [ih fuel _ (Nat.zero_le 2) (by simp at hfuel; omega)]
    simp
  | quote hmultiline hlt h ih =>
    obtain ⟨fuel, rfl⟩ := Nat.exists_eq_add_one.2 (Nat.zero_lt_of_lt hfuel)
    exact multiline?_cons_quote h fuel done hslash hline hlt hrest
      (ih fuel _ hlt (by simp at hfuel ⊢; omega))

/-! ## Writing -/

/-- The number of an escaped control character is read back. -/
theorem codePoint?_unicodeDigits (h : c.toNat < 128) :
    codePoint? 4 (unicodeDigits c.toNat ++ rest) = some (c, rest) := by
  have hdigits : ∀ n < 128, (unicodeDigits n).length = 4 ∧
      Hex.number? (unicodeDigits n) = some n := by
    decide +kernel
  obtain ⟨hlength, hnumber⟩ := hdigits _ h
  have htake : (unicodeDigits c.toNat ++ rest).take 4 = unicodeDigits c.toNat :=
    List.take_left' hlength
  have hdrop : (unicodeDigits c.toNat ++ rest).drop 4 = rest := List.drop_left' hlength
  simp only [codePoint?, htake, hdrop, hlength, ne_eq, not_true_eq_false, if_false, hnumber,
    Option.bind_eq_bind, Option.bind_some, Char.ofNat_toNat]
  exact if_pos (.inl (by omega))

/-- Escaped characters are spelled, as long as quotes only stand for themselves where they may. -/
theorem spells_escaped {allowed : Nat} (hallowed : allowed ≤ 2)
    (hmultiline : allowed ≠ 0 → multiline = true) (run : Nat) (cs : List Char) :
    Spells '"' true multiline run cs (escaped multiline allowed run cs) := by
  induction cs generalizing run with
  | nil => exact .nil
  | cons c rest ih =>
    rw [escaped]
    by_cases hquote : c = '"'
    · rw [if_pos hquote, hquote]
      split
      · next hrun => exact .quote (hmultiline (by omega)) (by omega) (ih _)
      · exact .escape ['"'] rfl (fun _ => rfl) (ih 0)
    · rw [if_neg hquote]
      dsimp only
      split_ifs with hback htab hnewline hlines hfeed hreturn hslash hcontrol
      · exact hback ▸ .escape ['b'] rfl (fun _ => rfl) (ih 0)
      · exact htab ▸ .escape ['t'] rfl (fun _ => rfl) (ih 0)
      · subst hnewline
        exact .newline hlines (ih 0)
      · exact hnewline ▸ .escape ['n'] rfl (fun _ => rfl) (ih 0)
      · exact hfeed ▸ .escape ['f'] rfl (fun _ => rfl) (ih 0)
      · exact hreturn ▸ .escape ['r'] rfl (fun _ => rfl) (ih 0)
      · subst hslash
        exact .escape ['\\'] rfl (fun _ => rfl) (ih 0)
      · exact .escape ('u' :: unicodeDigits c.toNat) rfl
          (fun _ => codePoint?_unicodeDigits (by omega)) (ih 0)
      · have hplain : isPlain c = true := by simp [isPlain]; omega
        exact .plain hplain hquote (fun _ => hslash) (ih 0)

theorem le_longestRun (quote : Char) (current longest : Nat) (cs : List Char) :
    max current longest ≤ longestRun quote current longest cs := by
  induction cs generalizing current longest with
  | nil => exact Nat.le_refl _
  | cons c rest ih =>
    rw [longestRun]
    split
    · have hmore := ih (current + 1) longest
      omega
    · have hmore := ih 0 (max current longest)
      omega

theorem isPlain_of_needsEscape (h : needsEscape c = false) (hnewline : c ≠ '\n') :
    isPlain c = true := by
  by_cases htab : c = '\t'
  · simp [isPlain, htab]
  · simp [needsEscape, htab, hnewline] at h
    simp [isPlain, htab]
    omega

/-- Characters that need no escape spell themselves, as long as there are no more quotes in a row
than may stand for themselves. -/
theorem spells_self {limit longest : Nat} (hlimit : limit ≤ 2)
    (hmultiline : limit ≠ 0 → multiline = true) (hescape : ∀ c ∈ cs, needsEscape c = false)
    (hlines : multiline = false → '\n' ∉ cs)
    (hruns : longestRun quote run longest cs ≤ limit) :
    Spells quote false multiline run cs cs := by
  induction cs generalizing run longest with
  | nil => exact .nil
  | cons c rest ih =>
    have hescape' : ∀ c ∈ rest, needsEscape c = false :=
      fun c hc => hescape c (List.mem_cons_of_mem _ hc)
    have hlines' : multiline = false → '\n' ∉ rest :=
      fun hm hc => hlines hm (List.mem_cons_of_mem _ hc)
    rw [longestRun] at hruns
    split at hruns
    · next hquote =>
      have hmore := le_longestRun quote (run + 1) longest rest
      subst hquote
      exact .quote (hmultiline (by omega)) (by omega) (ih hescape' hlines' hruns)
    · next hquote =>
      by_cases hnewline : c = '\n'
      · subst hnewline
        have hmulti : multiline = true := by
          cases multiline with
          | true => rfl
          | false => exact absurd (List.mem_cons_self ..) (hlines rfl)
        exact .newline hmulti (ih hescape' hlines' hruns)
      · have hneeds := hescape c (List.mem_cons_self ..)
        exact .plain (isPlain_of_needsEscape hneeds hnewline) hquote nofun
          (ih hescape' hlines' hruns)

/-! ## All strings -/

/-- The text of a string of one line does not begin with a quote. -/
theorem head?_of_spells (h : Spells quote escapes false run cs text) (hslash : quote ≠ '\\') :
    text.head? ≠ some quote := by
  cases h with
  | nil => nofun
  | plain hplain hquote hescape h => exact fun hhead => hquote (Option.some.inj hhead)
  | escape written hescapes hread h => exact fun hhead => hslash (Option.some.inj hhead).symm
  | newline hmultiline => cases hmultiline
  | quote hmultiline => cases hmultiline

theorem string?_basic (h : Spells '"' true false 0 cs text) (rest : List Char)
    (hrest : rest.head? ≠ some '"') :
    string? ('"' :: (text ++ '"' :: rest)) = some (String.ofList cs, rest) := by
  have hread : string? ('"' :: (text ++ '"' :: rest)) =
      basic? ((text ++ '"' :: rest).length + 1) [] (text ++ '"' :: rest) := by
    have hbody := head?_of_spells h (by decide)
    cases text with
    | nil =>
      cases rest with
      | nil => rfl
      | cons d rest =>
        have hd : d ≠ '"' := by simpa using hrest
        simp [string?, hd]
    | cons d text =>
      have hd : d ≠ '"' := by simpa using hbody
      simp [string?, hd]
  rw [hread]
  exact basic?_of_spells h (by simp only [List.length_append, List.length_cons]; omega)

theorem string?_literal (h : Spells '\'' false false 0 cs text) (rest : List Char)
    (hrest : rest.head? ≠ some '\'') :
    string? ('\'' :: (text ++ '\'' :: rest)) = some (String.ofList cs, rest) := by
  have hread : string? ('\'' :: (text ++ '\'' :: rest)) = literal? [] (text ++ '\'' :: rest) := by
    have hbody := head?_of_spells h (by decide)
    cases text with
    | nil =>
      cases rest with
      | nil => rfl
      | cons d rest =>
        have hd : d ≠ '\'' := by simpa using hrest
        simp [string?, hd]
    | cons d text =>
      have hd : d ≠ '\'' := by simpa using hbody
      simp [string?, hd]
  rw [hread]
  exact literal?_of_spells h

/-- A text without line ends does not begin with one. -/
theorem newline?_of_spells (h : Spells quote escapes multiline run cs text)
    (hquote : isPlain quote = true) (hcs : '\n' ∉ cs) :
    newline? (text ++ quote :: rest) = none := by
  cases h with
  | nil => exact newline?_of_plain hquote
  | plain hplain => exact newline?_of_plain hplain
  | escape => rfl
  | newline => exact absurd (List.mem_cons_self ..) hcs
  | quote => exact newline?_of_plain hquote

/-- The line end that opens a string of several lines does not count. -/
theorem multilineBody?_of_spells (h : Spells quote escapes true 0 cs text) (rest : List Char)
    (hquote : isPlain quote = true) (hslash : quote ≠ '\\') (hrest : rest.head? ≠ some quote) :
    multilineBody? quote escapes ((if cs.contains '\n' then ['\n'] else []) ++
        (text ++ (List.replicate 3 quote ++ rest))) = some (String.ofList cs, rest) := by
  have hline : quote ≠ '\n' := by rintro rfl; cases hquote
  have hfuel : text.length < (text ++ (List.replicate 3 quote ++ rest)).length + 1 := by
    simp only [List.length_append]
    omega
  rw [multilineBody?]
  by_cases hcs : '\n' ∈ cs
  · rw [if_pos (List.contains_iff_mem.2 hcs)]
    change multiline? quote escapes ((text ++ (List.replicate 3 quote ++ rest)).length + 1) []
      (text ++ (List.replicate 3 quote ++ rest)) = _
    exact multiline?_of_spells h _ _ hslash hline (Nat.zero_le 2) hrest hfuel
  · have hnone : newline? (text ++ (List.replicate 3 quote ++ rest)) = none :=
      newline?_of_spells h hquote hcs
    rw [if_neg fun hcontains => hcs (List.contains_iff_mem.1 hcontains), List.nil_append, hnone]
    exact multiline?_of_spells h _ _ hslash hline (Nat.zero_le 2) hrest hfuel

theorem formOf_literal (h : formOf cs = .literal) :
    (∀ c ∈ cs, needsEscape c = false) ∧ '\n' ∉ cs ∧ longestRun '\'' 0 0 cs = 0 := by
  rw [formOf] at h
  split_ifs at h with hbasic hliteral
  exact ⟨by simpa using hliteral.1, by simpa using hliteral.2.1, hliteral.2.2⟩

theorem formOf_multilineLiteral (h : formOf cs = .multilineLiteral) :
    (∀ c ∈ cs, needsEscape c = false) ∧ longestRun '\'' 0 0 cs ≤ 2 := by
  rw [formOf] at h
  split_ifs at h with hbasic hliteral hmultiline hlast
  exact ⟨by simpa using hlast.1, hlast.2⟩

/-- **Every string is read back as it was written**, and the rest of its line with it. -/
theorem string?_writeString (s : String) (rest : List Char) :
    string? ((writeString s).toList ++ '\n' :: rest) = some (s, '\n' :: rest) := by
  have hescaped : ∀ {multiline} allowed, allowed ≤ 2 → (allowed ≠ 0 → multiline = true) →
      Spells '"' true multiline 0 s.toList (escaped multiline allowed 0 s.toList) :=
    fun _ hallowed hmultiline => spells_escaped hallowed hmultiline 0 s.toList
  rw [writeString, String.toList_ofList]
  cases hform : formOf s.toList with
  | basic =>
    have hread := string?_basic (hescaped 0 (Nat.zero_le 2) nofun) ('\n' :: rest) nofun
    rw [String.ofList_toList] at hread
    simpa using hread
  | literal =>
    obtain ⟨hescape, hlines, hruns⟩ := formOf_literal hform
    have hspells : Spells '\'' false false 0 s.toList s.toList :=
      spells_self (Nat.zero_le 2) nofun hescape (fun _ => hlines) (Nat.le_of_eq hruns)
    have hread := string?_literal hspells ('\n' :: rest) nofun
    rw [String.ofList_toList] at hread
    simpa using hread
  | multilineBasic =>
    have hread := multilineBody?_of_spells (hescaped 2 (Nat.le_refl 2) fun _ => rfl)
      ('\n' :: rest) rfl (by decide) nofun
    rw [String.ofList_toList] at hread
    simpa [string?] using hread
  | multilineLiteral =>
    obtain ⟨hescape, hruns⟩ := formOf_multilineLiteral hform
    have hspells : Spells '\'' false true 0 s.toList s.toList :=
      spells_self (Nat.le_refl 2) (fun _ => rfl) hescape nofun hruns
    have hread := multilineBody?_of_spells hspells ('\n' :: rest) rfl (by decide) nofun
    rw [String.ofList_toList] at hread
    simpa [string?] using hread

end Rollout.Toml
