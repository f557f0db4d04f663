import Rollout.Proofs.Toml.Scalars

/-!
# Proofs/Toml/Lines — every line is read back as it was written

A text renders lines if it is read as them whatever follows it (`Renders`), so texts that do can be
put behind one another.  A pair renders one line (`renders_pair`), and so does the heading of a table
or of one more table in a list, with its path written out (`renders_heading`).
-/

namespace Rollout.Toml

variable {c : Char} {ds rest : List Char}

/-! ## Keys -/

/-- A key that needs no quotes. -/
def IsBare (key : String) : Prop :=
  key ≠ "" ∧ ∀ c ∈ key.toList, isBareKey c = true

instance (key : String) : Decidable (IsBare key) :=
  decidable_of_iff (key ≠ "" ∧ key.toList.all isBareKey = true)
    (and_congr_right fun _ => List.all_eq_true)

theorem IsBare.head {key : String} (h : IsBare key) :
    ∃ c more, key.toList = c :: more ∧ isBareKey c = true := by
  cases hkey : key.toList with
  | nil => exact absurd (String.toList_inj.1 hkey) h.1
  | cons c more => exact ⟨c, more, rfl, h.2 c (hkey ▸ List.mem_cons_self ..)⟩

theorem not_isBlank_of_isBareKey (h : isBareKey c = true) : isBlank c = false := by
  rw [Bool.eq_false_iff]
  intro hblank
  simp only [isBlank, Bool.or_eq_true, decide_eq_true_eq] at hblank
  rcases hblank with rfl | rfl <;> cases h

theorem skipBlanks_of_isBareKey (h : isBareKey c = true) : skipBlanks (c :: rest) = c :: rest :=
  List.dropWhile_cons_of_neg (by simp [not_isBlank_of_isBareKey h])

/-- A bare key is read up to the first character that cannot belong to it. -/
theorem simpleKey?_of_isBare {key : String} (h : IsBare key) {d : Char}
    (hd : isBareKey d = false) (rest : List Char) :
    simpleKey? (skipBlanks (key.toList ++ d :: rest)) = some (key, d :: rest) := by
  have htake : (key.toList ++ d :: rest).takeWhile isBareKey = key.toList := by
    rw [List.takeWhile_append_of_pos h.2, List.takeWhile_cons_of_neg (by simp [hd]),
      List.append_nil]
  have hdrop : (key.toList ++ d :: rest).dropWhile isBareKey = d :: rest := by
    rw [List.dropWhile_append_of_pos h.2, List.dropWhile_cons_of_neg (by simp [hd])]
  obtain ⟨c, more, hkey, hc⟩ := h.head
  rw [hkey, List.cons_append] at htake hdrop ⊢
  rw [skipBlanks_of_isBareKey hc, simpleKey?]
  · rw [htake, hdrop]
    dsimp only
    rw [← hkey, String.ofList_toList]
  · rintro _ ⟨⟩; cases hc
  · rintro _ ⟨⟩; cases hc

/-- The names of a heading's path, each with a dot behind it. -/
def prefixText : List String → String
  | [] => ""
  | name :: names => name ++ "." ++ prefixText names

theorem prefixText_append (names more : List String) :
    prefixText (names ++ more) = prefixText names ++ prefixText more := by
  induction names with
  | nil => simp [prefixText]
  | cons name names ih => simp [prefixText, ih, String.append_assoc]

theorem length_le_prefixText (names : List String) :
    names.length ≤ (prefixText names).toList.length := by
  induction names with
  | nil => exact Nat.zero_le _
  | cons name names ih =>
    simp only [prefixText, String.toList_append, List.length_append, List.length_cons]
    have hdot : ".".toList.length = 1 := rfl
    omega

/-- **The names of a key are read back as they were written.** -/
theorem key?_prefixText {names : List String} (hnames : ∀ name ∈ names, IsBare name) {key : String}
    (hkey : IsBare key) {d : Char} (hd : isBareKey d = false) (hblank : isBlank d = false)
    (hdot : d ≠ '.') {fuel : Nat} (hfuel : names.length < fuel) :
    key? fuel ((prefixText names ++ key).toList ++ d :: rest) = some (names ++ [key], d :: rest) := by
  induction names generalizing fuel with
  | nil =>
    obtain ⟨fuel, rfl⟩ := Nat.exists_eq_add_one.2 hfuel
    have hsimple := simpleKey?_of_isBare hkey hd rest
    have hskip : skipBlanks (d :: rest) = d :: rest :=
      List.dropWhile_cons_of_neg (by simp [hblank])
    rw [prefixText, String.empty_append, key?, hsimple]
    dsimp only
    rw [hskip]
    split
    · next h => exact absurd (List.cons.inj h).1 hdot
    · rfl
  | cons name names ih =>
    obtain ⟨fuel, rfl⟩ := Nat.exists_eq_add_one.2 (Nat.zero_lt_of_lt hfuel)
    have hmore := ih (fun name hname => hnames name (List.mem_cons_of_mem _ hname))
      (Nat.lt_of_succ_lt_succ hfuel)
    have hsimple := simpleKey?_of_isBare (d := '.') (hnames name (List.mem_cons_self ..)) rfl
      ((prefixText names ++ key).toList ++ d :: rest)
    have htext : (prefixText (name :: names) ++ key).toList ++ d :: rest =
        name.toList ++ '.' :: ((prefixText names ++ key).toList ++ d :: rest) := by
      simp [prefixText]
    rw [htext, key?, hsimple]
    dsimp only
    exact congrArg (Option.map fun found => (name :: found.1, found.2)) hmore

/-! ## Lines -/

/-- **The text is read as the lines**, whatever follows it. -/
structure Renders (text : List Char) (lines : List Line) : Prop where
  count : lines.length ≤ text.length
  read : ∀ fuel rest,
    lines? (fuel + lines.length) (text ++ rest) = (lines? fuel rest).map (lines ++ ·)

theorem renders_nil : Renders [] [] where
  count := Nat.le_refl 0
  read fuel rest := by
    cases h : lines? fuel rest <;> simp [h]

theorem Renders.append {text text' : List Char} {lines lines' : List Line}
    (h : Renders text lines) (h' : Renders text' lines') :
    Renders (text ++ text') (lines ++ lines') where
  count := by
    have hcount := h.count
    have hcount' := h'.count
    simp only [List.length_append]
    omega
  read fuel rest := by
    rw [List.length_append, Nat.add_comm lines.length, ← Nat.add_assoc, List.append_assoc, h.read,
      h'.read, Option.map_map]
    congr 1
    funext more
    exact (List.append_assoc ..).symm

/-- A line, when what is in it reads. -/
theorem lines?_of_lineBody? {text : List Char} {line : Line} (fuel : Nat)
    (h : lineBody? text = some (line, '\n' :: rest)) :
    lines? (fuel + 1) text = (lines? fuel rest).map (line :: ·) := by
  rw [lines?, h]
  cases hmore : lines? fuel rest <;> simp [skipBlanks, isBlank, skipComment?, newline?, hmore]

theorem renders_line {text : List Char} {line : Line} (hne : text ≠ [])
    (h : ∀ rest, lineBody? (text ++ rest) = some (line, '\n' :: rest)) :
    Renders text [line] where
  count := List.length_pos_iff.2 hne
  read fuel rest := lines?_of_lineBody? fuel (h rest)

theorem renders_blank : Renders ['\n'] [.blank] :=
  renders_line (List.cons_ne_nil _ _) fun _ => rfl

theorem lineBody?_of_isBareKey (h : isBareKey c = true) :
    lineBody? (c :: rest) = (pair? (2 * (c :: rest).length + 3) depthLimit (c :: rest)).map
      fun (pair, rest) => (.pair pair, rest) := by
  have hother : ∀ {d text}, isBareKey d = false → c :: rest ≠ d :: text := by
    intro d text hd htext
    rw [← (List.cons.inj htext).1, h] at hd
    cases hd
  rw [lineBody?, skipBlanks_of_isBareKey h]
  split
  · next htext => cases htext
  · next htext => exact absurd htext (hother rfl)
  · next htext => exact absurd htext (hother rfl)
  · next htext => exact absurd htext (hother rfl)
  · next htext => exact absurd htext (hother rfl)
  · rfl

theorem head_of_plain {v : Value} {text : String} (hplain : Plain v) (h : plain? v = some text) :
    ∃ c more, text.toList = c :: more ∧ isBlank c = false := by
  cases hplain with
  | bool b =>
    obtain rfl := Option.some.inj h
    cases b with
    | true => exact ⟨_, _, rfl, rfl⟩
    | false => exact ⟨_, _, rfl, rfl⟩
  | number n =>
    rw [plain?] at h
    split_ifs at h with hn
    obtain rfl := Option.some.inj h
    obtain ⟨c, more, hmore, hc⟩ := isDigit_head_toString n
    refine ⟨c, more, hmore, not_isBlank_of_isBareKey ?_⟩
    simp [isBareKey, hc]
  | string s =>
    obtain rfl := Option.some.inj h
    rcases head?_writeString s with h | h <;> obtain ⟨more, hmore⟩ := List.head?_eq_some_iff.1 h
    · exact ⟨_, more, hmore, rfl⟩
    · exact ⟨_, more, hmore, rfl⟩
  | none =>
    obtain rfl := Option.some.inj h
    exact ⟨_, _, rfl, rfl⟩

/-- A pair is read as its key and its value. -/
theorem pair?_of_plain {key text : String} {v : Value} (hkey : IsBare key) (hplain : Plain v)
    (h : plain? v = some text) (fuel : Nat) (rest : List Char) :
    pair? (fuel + 3) depthLimit (key.toList ++ ' ' :: '=' :: ' ' :: (text.toList ++ '\n' :: rest)) =
      some (⟨[], key, reproduced v⟩, '\n' :: rest) := by
  have hread : ∀ fuel, key? (fuel + 1) (key.toList ++ ' ' :: '=' :: ' ' ::
      (text.toList ++ '\n' :: rest)) = some ([key], '=' :: ' ' :: (text.toList ++ '\n' :: rest)) := by
    intro fuel
    rw [key?, simpleKey?_of_isBare hkey rfl _]
    rfl
  have hskip : skipBlanks (' ' :: (text.toList ++ '\n' :: rest)) = text.toList ++ '\n' :: rest := by
    obtain ⟨c, more, hmore, hc⟩ := head_of_plain hplain h
    rw [hmore, skipBlanks, List.dropWhile_cons_of_pos rfl, List.cons_append,
      List.dropWhile_cons_of_neg (by simp [hc])]
  have hsplit : splitKey? [key] = some ([], key) := rfl
  rw [pair?, hread]
  simp only [hsplit, hskip, value?_of_plain hplain h (show 2 ≤ depthLimit by decide)]

/-- **The line of a pair.** -/
theorem renders_pair {key text : String} {v : Value} (hkey : IsBare key) (hplain : Plain v)
    (h : plain? v = some text) :
    Renders (key ++ " = " ++ text ++ "\n").toList [.pair ⟨[], key, reproduced v⟩] := by
  have hline : ∀ rest, (key ++ " = " ++ text ++ "\n").toList ++ rest =
      key.toList ++ ' ' :: '=' :: ' ' :: (text.toList ++ '\n' :: rest) := by simp
  refine renders_line (by simp) fun rest => ?_
  have hpair := fun fuel => pair?_of_plain hkey hplain h fuel rest
  obtain ⟨c, more, hhead, hc⟩ := hkey.head
  rw [hline, hhead, List.cons_append, lineBody?_of_isBareKey hc, ← List.cons_append, ← hhead, hpair]
  rfl

/-- The heading of a table, or of one more table in a list. -/
def headingLine (repeated : Bool) (path : List String) (key : String) : Line :=
  if repeated then .element path key else .table path key

/-- The line of a heading as it is written. -/
def headingText (repeated : Bool) (name : String) : String :=
  if repeated then "[[" ++ name ++ "]]" else "[" ++ name ++ "]"

theorem lineBody?_of_heading (rest : List Char) : lineBody? ('[' :: rest) = heading? rest := rfl

theorem head_of_path {path : List String} {key : String} (hpath : ∀ name ∈ path, IsBare name)
    (hkey : IsBare key) :
    ∃ c more, (prefixText path ++ key).toList = c :: more ∧ isBareKey c = true := by
  cases path with
  | nil => simpa [prefixText] using hkey.head
  | cons name names =>
    obtain ⟨c, more, hmore, hc⟩ := (hpath name (List.mem_cons_self ..)).head
    exact ⟨c, more ++ '.' :: (prefixText names ++ key).toList, by simp [prefixText, hmore], hc⟩

/-- The names of a heading are read up to its first closing bracket. -/
theorem key?_of_heading {path : List String} {key : String} (hpath : ∀ name ∈ path, IsBare name)
    (hkey : IsBare key) (rest : List Char) :
    key? (((prefixText path ++ key).toList ++ ']' :: rest).length + 1)
      ((prefixText path ++ key).toList ++ ']' :: rest) = some (path ++ [key], ']' :: rest) := by
  have hlength := length_le_prefixText path
  refine key?_prefixText hpath hkey rfl rfl (by decide) ?_
  simp only [String.toList_append, List.length_append]
  omega

theorem splitKey?_concat {path : List String} (h : path.length < depthLimit) (key : String) :
    splitKey? (path ++ [key]) = some (path, key) := by
  have hlength : ¬ depthLimit < (path ++ [key]).length := by
    rw [List.length_append, List.length_singleton]
    omega
  rw [splitKey?, if_neg hlength, List.getLast?_concat, List.dropLast_concat, Option.map_some]

/-- **The line of a heading.** -/
theorem renders_heading (repeated : Bool) {path : List String} {key : String}
    (hpath : ∀ name ∈ path, IsBare name) (hkey : IsBare key) (hdepth : path.length < depthLimit) :
    Renders ((headingText repeated (prefixText path ++ key)).toList ++ ['\n'])
      [headingLine repeated path key] := by
  have hsplit := splitKey?_concat hdepth key
  refine renders_line (by simp) fun rest => ?_
  cases repeated with
  | true =>
    have hline : (headingText true (prefixText path ++ key)).toList ++ ['\n'] ++ rest =
        '[' :: '[' :: ((prefixText path ++ key).toList ++ ']' :: ']' :: '\n' :: rest) := by
      simp [headingText]
    rw [hline, lineBody?_of_heading, heading?, key?_of_heading hpath hkey]
    simp [hsplit, headingLine]
  | false =>
    have hline : (headingText false (prefixText path ++ key)).toList ++ ['\n'] ++ rest =
        '[' :: ((prefixText path ++ key).toList ++ ']' :: '\n' :: rest) := by
      simp [headingText]
    have hread := key?_of_heading hpath hkey ('\n' :: rest)
    obtain ⟨c, more, hmore, hc⟩ := head_of_path hpath hkey
    rw [hmore] at hline hread
    rw [hline, lineBody?_of_heading, heading?, hread]
    · simp [hsplit, headingLine]
    · -- a name does not begin with a bracket
      intro _ htext
      rw [(List.cons.inj htext).1] at hc
      cases hc

end Rollout.Toml
