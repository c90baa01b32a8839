import ControlPlane.Lib.JsonRead

/-!
# JSON texts read back

What `json.loads` makes of the texts that `json.dumps` writes. What was written is read back
(`readsBack`), whatever follows it, but for three things: a tuple is read as a list, a key as a
text, and a high surrogate with a low one behind it as the one code point that the two stand for
(`readBack`). A value of JSON without such pairs is read back as it was (`readBack_eq_self`), and
the text with sorted keys tells two such values apart (`sortKeys_inj`).
-/

namespace ControlPlane.JsonText

/-! ## What is read of a text in quotes -/

/-- A text with its pairs of surrogates joined. -/
def join : PyStr → PyStr
  | [] => []
  | [c] => [c]
  | h :: l :: rest =>
    if isHigh h && isLow l then joinPair h l :: join rest else h :: join (l :: rest)

/-- The units that a code point is written with. -/
def unitsOf (c : CodePoint) : List (Bool × CodePoint) :=
  if (ESCAPES.lookup c).isSome then [(false, c)]
  else if 32 ≤ c ∧ c ≤ 126 then [(false, c)]
  else if c.val < 0x10000 then [(true, c)]
  else [(true, Fin.ofNat _ (highOf c)), (true, Fin.ofNat _ (lowOf c))]

theorem mem_of_lookup {c d : CodePoint} {l : List (CodePoint × CodePoint)}
    (h : l.lookup c = some d) : (c, d) ∈ l := by
  obtain ⟨l₁, l₂, hl, -⟩ := List.lookup_eq_some_iff.mp h
  rw [hl]
  simp

/-- A letter behind a backslash is read as the code point that it was written for. -/
theorem lookup_unescapes {c letter : CodePoint} (h : ESCAPES.lookup c = some letter) :
    UNESCAPES.lookup letter = some c ∧ letter ≠ 117 := by
  have hmem : (c, letter) ∈ ESCAPES := mem_of_lookup h
  simp only [ESCAPES, List.mem_cons, Prod.mk.injEq, List.not_mem_nil, or_false] at hmem
  rcases hmem with ⟨rfl, rfl⟩ | ⟨rfl, rfl⟩ | ⟨rfl, rfl⟩ | ⟨rfl, rfl⟩ | ⟨rfl, rfl⟩ | ⟨rfl, rfl⟩ |
    ⟨rfl, rfl⟩
  all_goals decide

/-- A digit of a code unit is read back. -/
theorem hexVal_hexDigit {n : ℕ} (h : n < 16) : hexVal (hexDigit n) = some n := by
  unfold hexVal hexDigit
  split_ifs with h10
  all_goals simp_all
  all_goals omega

theorem scanUnits_quote (s : PyStr) : scanUnits (34 :: s) = some ([], s) := by
  rw [scanUnits.eq_def]
  simp

theorem scanUnits_raw {c : CodePoint} (h34 : c ≠ 34) (h92 : c ≠ 92) (h32 : 32 ≤ c) (s : PyStr) :
    scanUnits (c :: s) = (scanUnits s).map fun r => ((false, c) :: r.1, r.2) := by
  rw [scanUnits.eq_def]
  simp only [if_neg h34, if_neg h92, if_neg (not_lt.mpr h32)]
  cases scanUnits s with
  | none => rfl
  | some r => rfl

theorem scanUnits_letter {e c : CodePoint} (hback : UNESCAPES.lookup e = some c) (hne : e ≠ 117)
    (s : PyStr) :
    scanUnits (92 :: e :: s) = (scanUnits s).map fun r => ((false, c) :: r.1, r.2) := by
  have h92 : (92 : CodePoint) ≠ 34 := by decide
  rw [scanUnits.eq_def]
  simp only [if_neg h92, if_true, if_neg hne, hback]
  cases scanUnits s with
  | none => rfl
  | some r => rfl

/-- A code unit is read back. -/
theorem scanUnits_unitText {n : ℕ} (h : n < 0x10000) (s : PyStr) :
    scanUnits (unitText n ++ s) =
      (scanUnits s).map fun r => ((true, Fin.ofNat _ n) :: r.1, r.2) := by
  have hn : 4096 * (n / 4096) + 256 * (n / 256 % 16) + 16 * (n / 16 % 16) + n % 16 = n := by omega
  have h4 : hex4 (hexDigit (n / 4096)) (hexDigit (n / 256 % 16)) (hexDigit (n / 16 % 16))
      (hexDigit (n % 16)) = some (Fin.ofNat _ n) := by
    unfold hex4
    rw [hexVal_hexDigit (by omega), hexVal_hexDigit (by omega), hexVal_hexDigit (by omega),
      hexVal_hexDigit (by omega)]
    simp [hn]
  have h92 : (92 : CodePoint) ≠ 34 := by decide
  simp only [unitText, List.cons_append, List.nil_append]
  rw [scanUnits.eq_def]
  simp only [if_neg h92, if_true, h4]
  cases scanUnits s with
  | none => rfl
  | some r => rfl

/-- A code point is read back as its units. -/
theorem scanUnits_escape (c : CodePoint) (s : PyStr) :
    scanUnits (escape c ++ s) = (scanUnits s).map fun r => (unitsOf c ++ r.1, r.2) := by
  unfold escape unitsOf
  cases hc : ESCAPES.lookup c with
  | some letter =>
    obtain ⟨hback, hne⟩ := lookup_unescapes hc
    exact scanUnits_letter hback hne s
  | none =>
    have h34 : c ≠ 34 := fun e => by simp [e, ESCAPES] at hc
    have h92 : c ≠ 92 := fun e => by simp [e, ESCAPES] at hc
    simp only [Option.isSome_none, Bool.false_eq_true, if_false]
    split_ifs with hascii hlow
    · exact scanUnits_raw h34 h92 hascii.1 s
    · rw [scanUnits_unitText hlow, Fin.ofNat_val_eq_self]
      rfl
    · have hhigh : highOf c < 0x10000 := by
        unfold highOf
        omega
      have hlow : lowOf c < 0x10000 := by
        unfold lowOf
        omega
      rw [List.append_assoc, scanUnits_unitText hhigh, scanUnits_unitText hlow, Option.map_map]
      rfl

/-- A text is read back as its units. -/
theorem scanUnits_quoted (s tail : PyStr) :
    scanUnits (s.flatMap escape ++ 34 :: tail) = some (s.flatMap unitsOf, tail) := by
  induction s with
  | nil => exact scanUnits_quote tail
  | cons c s ih =>
    rw [List.flatMap_cons, List.append_assoc, scanUnits_escape, ih, List.flatMap_cons]
    rfl

theorem isHigh_iff {c : CodePoint} : isHigh c = true ↔ 0xd800 ≤ c.val ∧ c.val ≤ 0xdbff := by
  simp [isHigh]

theorem isLow_iff {c : CodePoint} : isLow c = true ↔ 0xdc00 ≤ c.val ∧ c.val ≤ 0xdfff := by
  simp [isLow]

/-- A pair of surrogates stands for a code point beyond the first plane. -/
theorem joinPair_val {h l : CodePoint} (hh : isHigh h = true) (hl : isLow l = true) :
    (joinPair h l).val = 0x10000 + (h.val - 0xd800) * 0x400 + (l.val - 0xdc00) := by
  rw [isHigh_iff] at hh
  rw [isLow_iff] at hl
  unfold joinPair
  rw [Fin.val_ofNat, Nat.mod_eq_of_lt]
  omega

theorem not_surrogate_joinPair {h l : CodePoint} (hh : isHigh h = true) (hl : isLow l = true) :
    isHigh (joinPair h l) = false ∧ isLow (joinPair h l) = false := by
  rw [← Bool.not_eq_true, ← Bool.not_eq_true, isHigh_iff, isLow_iff, joinPair_val hh hl]
  omega

/-- A code point is written as one unit, which is escaped when it is a surrogate, or as the pair of
surrogates that stands for it. -/
theorem unitsOf_cases (c : CodePoint) :
    (∃ b, unitsOf c = [(b, c)] ∧ (isHigh c = true ∨ isLow c = true → b = true)) ∨
      ∃ h l, unitsOf c = [(true, h), (true, l)] ∧ isHigh h = true ∧ isLow l = true ∧
        isLow h = false ∧ joinPair h l = c ∧ isHigh c = false ∧ isLow c = false := by
  have hsurr : isHigh c = true ∨ isLow c = true → 0xd800 ≤ c.val ∧ c.val ≤ 0xdfff := by
    rw [isHigh_iff, isLow_iff]
    omega
  unfold unitsOf
  split_ifs with hesc hascii hlow
  · left
    refine ⟨false, rfl, fun h => ?_⟩
    have hrange := hsurr h
    have hnone : ESCAPES.lookup c = none := by
      rw [List.lookup_eq_none_iff]
      intro p hp
      simp only [ESCAPES, List.mem_cons, List.not_mem_nil, or_false] at hp
      rw [bne_iff_ne]
      rintro rfl
      rcases hp with rfl | rfl | rfl | rfl | rfl | rfl | rfl
      all_goals simp at hrange
    rw [hnone] at hesc
    simp at hesc
  · left
    refine ⟨false, rfl, fun h => ?_⟩
    have hrange := hsurr h
    have hle : c.val ≤ 126 := Fin.le_def.mp hascii.2
    omega
  · left
    exact ⟨true, rfl, fun _ => rfl⟩
  · right
    have hc := c.isLt
    have hh : (Fin.ofNat 0x110000 (highOf c)).val = highOf c := by
      rw [Fin.val_ofNat, Nat.mod_eq_of_lt]
      unfold highOf
      omega
    have hl : (Fin.ofNat 0x110000 (lowOf c)).val = lowOf c := by
      rw [Fin.val_ofNat, Nat.mod_eq_of_lt]
      unfold lowOf
      omega
    generalize Fin.ofNat 0x110000 (highOf c) = h at hh ⊢
    generalize Fin.ofNat 0x110000 (lowOf c) = l at hl ⊢
    unfold highOf at hh
    unfold lowOf at hl
    have hhigh : isHigh h = true := by
      rw [isHigh_iff]
      omega
    have hlow' : isLow l = true := by
      rw [isLow_iff]
      omega
    refine ⟨h, l, rfl, hhigh, hlow', ?_, ?_, ?_, ?_⟩
    · rw [← Bool.not_eq_true, isLow_iff]
      omega
    · apply Fin.ext
      rw [joinPair_val hhigh hlow', hh, hl]
      omega
    · rw [← Bool.not_eq_true, isHigh_iff]
      omega
    · rw [← Bool.not_eq_true, isLow_iff]
      omega

/-- The units of a text are the text with its pairs joined. -/
theorem joinUnits_unitsOf (s : PyStr) : joinUnits (s.flatMap unitsOf) = join s := by
  fun_induction join s with
  | case1 => rfl
  | case2 c =>
    rw [List.flatMap_singleton]
    obtain ⟨b, hu, -⟩ | ⟨h, l, hu, hh, hl, -, hc, -⟩ := unitsOf_cases c
    · rw [hu]
      rfl
    · rw [hu]
      simp [joinUnits, hh, hl, hc]
  | case3 h l rest hpair ih =>
    simp only [Bool.and_eq_true] at hpair
    obtain ⟨b, hu, hb⟩ | ⟨_, _, -, -, -, -, -, hno, -⟩ := unitsOf_cases h
    · obtain ⟨b', hu', hb'⟩ | ⟨_, _, -, -, -, -, -, -, hno⟩ := unitsOf_cases l
      · rw [List.flatMap_cons, List.flatMap_cons, hu, hu', hb (.inl hpair.1), hb' (.inr hpair.2)]
        simp only [List.cons_append, List.nil_append, joinUnits, hpair, Bool.and_self, if_true, ih]
      · rw [hno] at hpair
        simp at hpair
    · rw [hno] at hpair
      simp at hpair
  | case4 h l rest hpair ih =>
    rw [List.flatMap_cons, ← ih]
    obtain ⟨b, hu, -⟩ | ⟨h', l', hu, hh, hl, -, hc, -⟩ := unitsOf_cases h
    · -- The unit behind is `l` or a high surrogate, and no pair with `h`.
      have hnext : ∃ y more, unitsOf l = y :: more ∧ (isHigh h && isLow y.2) = false := by
        obtain ⟨b', hu', -⟩ | ⟨h', l', hu', -, -, hno, -⟩ := unitsOf_cases l
        · exact ⟨_, _, hu', by simpa using hpair⟩
        · exact ⟨_, _, hu', by simp [hno]⟩
      obtain ⟨y, more, hy, hno⟩ := hnext
      rw [hu, List.flatMap_cons, hy]
      simp only [List.cons_append, List.nil_append, joinUnits, Bool.and_assoc, hno, Bool.and_false,
        Bool.false_eq_true, if_false]
    · rw [hu]
      simp [joinUnits, hh, hl, hc]

/-- A text in quotes is read as the text with its pairs joined. -/
theorem scanString_quoted (s tail : PyStr) :
    scanString (s.flatMap escape ++ 34 :: tail) = some (join s, tail) := by
  unfold scanString
  rw [scanUnits_quoted]
  simp [joinUnits_unitsOf]

/-- A text in which no high surrogate has a low one behind it. -/
def Joined (s : PyStr) : Prop := s.IsChain fun h l => (isHigh h && isLow l) = false

/-- A text without pairs is left as it is. -/
theorem join_of_joined {s : PyStr} (hs : Joined s) : join s = s := by
  fun_induction join s with
  | case1 => rfl
  | case2 c => rfl
  | case3 h l rest hpair ih =>
    have hno := (List.isChain_cons_cons.mp hs).1
    rw [hpair] at hno
    simp at hno
  | case4 h l rest hpair ih => rw [ih (List.isChain_cons_cons.mp hs).2]

/-- A text without high surrogates has no pairs of them. -/
theorem joined_of_forall {s : PyStr} (hs : ∀ c ∈ s, isHigh c = false) : Joined s := by
  unfold Joined
  induction s with
  | nil => exact List.IsChain.nil
  | cons c s ih =>
    have hrest := ih fun d hd => hs d (List.mem_cons_of_mem c hd)
    cases s with
    | nil => exact List.IsChain.singleton c
    | cons d s => exact List.isChain_cons_cons.mpr ⟨by simp [hs c List.mem_cons_self], hrest⟩

/-- There are no surrogates in a text of Lean. -/
theorem joined_u (s : String) : Joined (u s) := by
  refine joined_of_forall fun c hc => ?_
  obtain ⟨x, -, rfl⟩ := List.mem_map.mp hc
  have hx := x.valid
  change x.toNat < 0xd800 ∨ 0xdfff < x.toNat ∧ x.toNat < 0x110000 at hx
  have hval : (ofChar x).val = x.toNat := rfl
  rw [← Bool.not_eq_true, isHigh_iff, hval]
  omega

/-- A text with its pairs joined begins as the text does, or with no surrogate. -/
theorem exists_join_cons (l : CodePoint) (rest : PyStr) :
    ∃ c more, join (l :: rest) = c :: more ∧ (c = l ∨ isLow c = false) := by
  cases rest with
  | nil => exact ⟨l, [], rfl, .inl rfl⟩
  | cons l' rest =>
    rw [join]
    split_ifs with hpair
    · rw [Bool.and_eq_true] at hpair
      exact ⟨_, _, rfl, .inr (not_surrogate_joinPair hpair.1 hpair.2).2⟩
    · exact ⟨l, _, rfl, .inl rfl⟩

/-- There are no pairs left in a text with its pairs joined. -/
theorem joined_join (s : PyStr) : Joined (join s) := by
  unfold Joined
  fun_induction join s with
  | case1 => exact List.IsChain.nil
  | case2 c => exact List.IsChain.singleton c
  | case3 h l rest hpair ih =>
    rw [Bool.and_eq_true] at hpair
    have hno := (not_surrogate_joinPair hpair.1 hpair.2).1
    cases hrest : join rest with
    | nil => exact List.IsChain.singleton _
    | cons c more =>
      rw [hrest] at ih
      exact List.isChain_cons_cons.mpr ⟨by simp [hno], ih⟩
  | case4 h l rest hpair ih =>
    obtain ⟨c, more, hc, hlow⟩ := exists_join_cons l rest
    rw [hc] at ih ⊢
    refine List.isChain_cons_cons.mpr ⟨?_, ih⟩
    obtain rfl | hlow := hlow
    · simpa using hpair
    · simp [hlow]

/-! ## What is read of a number -/

theorem isDigit_iff {c : CodePoint} : isDigit c = true ↔ 48 ≤ c.val ∧ c.val ≤ 57 := by
  simp [isDigit]

/-- A text that does not begin with a digit. -/
def NoDigit (s : PyStr) : Prop := ∀ c ∈ s.head?, isDigit c = false

/-- A text that a number ends in front of. -/
def Stops (s : PyStr) : Prop := ∀ c ∈ s.head?, isDigit c = false ∧ c ≠ 46 ∧ c ≠ 101 ∧ c ≠ 69

/-- Digits as the scanner takes them: some, and no zero in front. -/
structure Whole (ds : PyStr) : Prop where
  digits : ∀ c ∈ ds, isDigit c = true
  ne : ds ≠ []
  head : ds.head? = some 48 → ds = [48]

theorem Stops.noDigit {s : PyStr} (h : Stops s) : NoDigit s := fun c hc => (h c hc).1

/-- Digits are taken up to where they end. -/
theorem takeWhile_digits {ds tail : PyStr} (hds : ∀ c ∈ ds, isDigit c = true)
    (ht : NoDigit tail) :
    (ds ++ tail).takeWhile isDigit = ds ∧ (ds ++ tail).dropWhile isDigit = tail := by
  have htail : tail.takeWhile isDigit = [] ∧ tail.dropWhile isDigit = tail := by
    cases tail with
    | nil => exact ⟨rfl, rfl⟩
    | cons c rest =>
      have hc := ht c rfl
      simp [hc]
  rw [List.takeWhile_append_of_pos hds, List.dropWhile_append_of_pos hds, htail.1, htail.2,
    List.append_nil]
  exact ⟨rfl, rfl⟩

theorem scanWhole_append {ds tail : PyStr} (hds : Whole ds) (ht : NoDigit tail) :
    scanWhole (ds ++ tail) = some (ds, tail) := by
  cases ds with
  | nil => exact absurd rfl hds.ne
  | cons c ds =>
    rw [List.cons_append, scanWhole]
    split_ifs with h0 hc
    · subst h0
      have hnil := hds.head rfl
      rw [List.cons.injEq] at hnil
      rw [hnil.2]
      rfl
    · have hspan := takeWhile_digits (fun d hd => hds.digits d (List.mem_cons_of_mem c hd)) ht
      rw [hspan.1, hspan.2]
    · exact absurd (hds.digits c List.mem_cons_self) hc

theorem scanFrac_of_ne {s : PyStr} (h : ∀ c ∈ s.head?, c ≠ 46) : scanFrac s = ([], s) := by
  cases s with
  | nil => rfl
  | cons c rest =>
    have hc := h c rfl
    rw [scanFrac, if_neg fun hno => hc hno.1]

theorem scanFrac_append {ds tail : PyStr} (hds : ∀ c ∈ ds, isDigit c = true) (hne : ds ≠ [])
    (ht : NoDigit tail) : scanFrac (46 :: (ds ++ tail)) = (46 :: ds, tail) := by
  have hspan := takeWhile_digits hds ht
  rw [scanFrac, hspan.1, hspan.2, if_pos ⟨rfl, hne⟩]

theorem scanExp_of_ne {s : PyStr} (h : ∀ c ∈ s.head?, c ≠ 101 ∧ c ≠ 69) : scanExp s = ([], s) := by
  cases s with
  | nil => rfl
  | cons c rest =>
    have hc := h c rfl
    rw [scanExp]
    simp [hc.1, hc.2]

theorem scanExp_append {ds tail : PyStr} {sign : CodePoint} (hsign : sign ∈ [43, 45])
    (hds : ∀ c ∈ ds, isDigit c = true) (hne : ds ≠ []) (ht : NoDigit tail) :
    scanExp (101 :: sign :: (ds ++ tail)) = (101 :: sign :: ds, tail) := by
  have hspan := takeWhile_digits hds ht
  rw [scanExp, scanSign, if_pos hsign]
  simp only [hspan.1, hspan.2, hne, ne_eq, not_false_eq_true, and_true, true_or, if_true]
  rfl

/-- There is no zero in front of a number with more than one digit. -/
theorem head_toDigits {n : ℕ} (h : 0 < n) : (Nat.toDigits 10 n).head? ≠ some '0' := by
  induction n using Nat.strong_induction_on with
  | h n ih =>
    obtain hlt | hge := Nat.lt_or_ge n 10
    · rw [Nat.toDigits_of_lt_base hlt]
      have hdigit : ∀ m < 10, 0 < m → [Nat.digitChar m].head? ≠ some '0' := by decide
      exact hdigit n hlt h
    · rw [Nat.toDigits_of_base_le (by decide) hge,
        List.head?_append_of_ne_nil _ Nat.toDigits_ne_nil]
      exact ih (n / 10) (by omega) (by omega)

/-- A number is written with digits that the scanner takes. -/
theorem whole_natText (n : ℕ) : Whole (natText n) where
  digits c hc := by
    obtain ⟨d, hd, rfl⟩ := List.mem_map.mp hc
    have hdigit := Text.isDigit_of_mem_toDigits hd
    rw [isDigit_iff]
    simpa [Text.isDigit, ofChar] using hdigit
  ne := by
    unfold natText
    rw [ne_eq, List.map_eq_nil_iff]
    exact Nat.toDigits_ne_nil
  head h := by
    obtain rfl | hpos := Nat.eq_zero_or_pos n
    · decide
    · have hne := head_toDigits hpos
      unfold natText at h
      rw [List.head?_map, Option.map_eq_some_iff] at h
      obtain ⟨d, hd, h48⟩ := h
      rw [hd] at hne
      have hzero := ofChar_injective (h48.trans (show _ = ofChar '0' by decide))
      exact absurd (congrArg some hzero) hne

/-- A number is read back from its digits. -/
theorem ofDigits_natText (n : ℕ) : ofDigits (natText n) = n := by
  unfold ofDigits natText
  rw [List.foldl_map]
  exact Nat.ofDigitChars_ten_toDigits

theorem isDigit_digit (d : Fin 10) : isDigit (digit d) = true := by
  rw [isDigit_iff]
  change 48 ≤ 48 + d.val ∧ 48 + d.val ≤ 57
  omega

theorem isDigit_of_mem_map {ds : List (Fin 10)} {c : CodePoint} (h : c ∈ ds.map digit) :
    isDigit c = true := by
  obtain ⟨d, -, rfl⟩ := List.mem_map.mp h
  exact isDigit_digit d

/-- The digits of a float are those that the scanner takes. -/
theorem whole_floatText (t : FloatText) : Whole (t.whole.map digit) where
  digits _ hc := isDigit_of_mem_map hc
  ne := by
    rw [ne_eq, List.map_eq_nil_iff]
    exact t.whole_ne
  head h := by
    rw [List.head?_map, Option.map_eq_some_iff] at h
    obtain ⟨d, hd, h48⟩ := h
    have h0 : d = 0 := by
      apply Fin.ext
      have hval := congrArg Fin.val h48
      change 48 + d.val = 48 at hval
      change d.val = 0
      omega
    rw [t.whole_head (by rw [hd, h0])]
    rfl

/-- A number stands behind its sign. -/
theorem scanSign_append {ds tail : PyStr} (hds : Whole ds) {neg : Bool} :
    scanSign [45] ((if neg then [45] else []) ++ (ds ++ tail)) =
      (if neg then [45] else [], ds ++ tail) := by
  cases neg with
  | true => rfl
  | false =>
    cases ds with
    | nil => exact absurd rfl hds.ne
    | cons c ds =>
      have hc := hds.digits c List.mem_cons_self
      have hne : c ≠ 45 := by
        rintro rfl
        exact absurd hc (by decide)
      simp [scanSign, hne]

/-- An integer is taken up to where it ends. -/
theorem scanNumber_int {ds tail : PyStr} (hds : Whole ds) (neg : Bool) (ht : Stops tail) :
    scanNumber ((if neg then [45] else []) ++ (ds ++ tail)) =
      some ⟨if neg then [45] else [], ds, [], [], tail⟩ := by
  have hfrac : scanFrac tail = ([], tail) := scanFrac_of_ne fun c hc => (ht c hc).2.1
  have hexp : scanExp tail = ([], tail) := scanExp_of_ne fun c hc => (ht c hc).2.2
  unfold scanNumber
  simp [scanSign_append hds, scanWhole_append hds ht.noDigit, hfrac, hexp]

/-- A float is taken up to where it ends. -/
theorem scanNumber_float (t : FloatText) {tail : PyStr} (ht : Stops tail) :
    scanNumber (t.text ++ tail) = some ⟨if t.neg then [45] else [], t.whole.map digit,
      if t.frac = [] then [] else 46 :: t.frac.map digit, expText t.exp, tail⟩ := by
  have hexp : scanExp (expText t.exp ++ tail) = (expText t.exp, tail) := by
    cases he : t.exp with
    | none => exact scanExp_of_ne fun c hc => (ht c hc).2.2
    | some e =>
      obtain ⟨neg, ds⟩ := e
      have hne : ds.map digit ≠ [] := by
        rw [ne_eq, List.map_eq_nil_iff]
        exact t.exp_ne _ he
      have hsign : (if neg then 45 else 43 : CodePoint) ∈ [43, 45] := by
        cases neg
        all_goals decide
      exact scanExp_append hsign (fun _ hc => isDigit_of_mem_map hc) hne ht.noDigit
  have hstop : ∀ c ∈ (expText t.exp ++ tail).head?, isDigit c = false ∧ c ≠ 46 := by
    intro c hc
    cases he : t.exp with
    | none =>
      rw [he] at hc
      exact ⟨(ht c hc).1, (ht c hc).2.1⟩
    | some e =>
      rw [he] at hc
      obtain rfl : 101 = c := Option.some.inj hc
      decide
  have hfrac : scanFrac ((if t.frac = [] then [] else 46 :: t.frac.map digit) ++
      (expText t.exp ++ tail)) =
        (if t.frac = [] then [] else 46 :: t.frac.map digit, expText t.exp ++ tail) := by
    split_ifs with hnil
    · exact scanFrac_of_ne fun c hc => (hstop c hc).2
    · exact scanFrac_append (fun _ hc => isDigit_of_mem_map hc)
        (by rwa [ne_eq, List.map_eq_nil_iff]) fun c hc => (hstop c hc).1
  have hnext : NoDigit ((if t.frac = [] then [] else 46 :: t.frac.map digit) ++
      (expText t.exp ++ tail)) := by
    split_ifs with hnil
    · exact fun c hc => (hstop c hc).1
    · intro c hc
      obtain rfl : 46 = c := Option.some.inj hc
      decide
  unfold scanNumber FloatText.text
  simp only [List.append_assoc, scanSign_append (whole_floatText t)]
  simp [scanWhole_append (whole_floatText t) hnext, hfrac, hexp]

/-! ### Floats -/

/-- The digit of a code point. -/
def undigit (c : CodePoint) : Fin 10 := Fin.ofNat 10 (c.val - 48)

theorem undigit_digit (d : Fin 10) : undigit (digit d) = d := by
  apply Fin.ext
  change (48 + d.val - 48) % 10 = d.val
  omega

theorem map_undigit (ds : List (Fin 10)) : (ds.map digit).map undigit = ds := by
  simp [Function.comp_def, undigit_digit]

/-- The float whose `repr` these parts are. -/
def floatOfToken (t : NumberToken) : Option FloatText :=
  let whole := t.whole.map undigit
  let frac := t.frac.tail.map undigit
  let exp := if t.exp = [] then none else
    some (decide (t.exp.tail.head? = some 45), t.exp.tail.tail.map undigit)
  if h : whole ≠ [] ∧ (whole.head? = some 0 → whole = [0]) ∧ (∀ e ∈ exp, e.2 ≠ []) ∧
      (frac ≠ [] ∨ exp.isSome = true) then
    some ⟨decide (t.sign ≠ []), whole, frac, exp, h.1, h.2.1, h.2.2.1, h.2.2.2⟩
  else none

/-- `float(s)` of the `repr` of a finite float. -/
def readFloat (s : PyStr) : JsonFloat :=
  match (scanNumber s).bind floatOfToken with
  | some t => .fin t
  | none => .nan

theorem readFloat_text (t : FloatText) : readFloat t.text = .fin t := by
  have hend : Stops [] := fun c hc => by simp at hc
  have hscan := scanNumber_float t hend
  rw [List.append_nil] at hscan
  have hfrac : (if t.frac = [] then [] else 46 :: t.frac.map digit).tail.map undigit = t.frac := by
    split_ifs with h
    · exact h.symm
    · exact map_undigit t.frac
  have hexp : (if expText t.exp = [] then none else
      some (decide ((expText t.exp).tail.head? = some 45),
        (expText t.exp).tail.tail.map undigit)) = t.exp := by
    rcases t.exp with _ | ⟨neg, ds⟩
    · rfl
    · cases neg
      all_goals simp [expText, Function.comp_def, undigit_digit]
  have hneg : decide ((if t.neg = true then [45] else [] : PyStr) ≠ []) = t.neg := by
    cases t.neg
    all_goals rfl
  have htoken : floatOfToken ⟨if t.neg then [45] else [], t.whole.map digit,
      if t.frac = [] then [] else 46 :: t.frac.map digit, expText t.exp, []⟩ = some t := by
    unfold floatOfToken
    simp only [map_undigit, hfrac, hexp, hneg]
    rw [dif_pos ⟨t.whole_ne, t.whole_head, t.exp_ne, t.isFloat⟩]
  unfold readFloat
  rw [hscan, Option.bind_some, htoken]

/-! ## What is written is ASCII -/

variable {Obj : Type}

/-- A text of printable ASCII characters. -/
def Printable (s : PyStr) : Prop := ∀ c ∈ s, 32 ≤ c.val ∧ c.val ≤ 126

theorem Printable.append {s t : PyStr} (hs : Printable s) (ht : Printable t) :
    Printable (s ++ t) := by
  intro c hc
  rcases List.mem_append.mp hc with h | h
  · exact hs c h
  · exact ht c h

theorem Printable.cons {c : CodePoint} {s : PyStr} (hc : 32 ≤ c.val ∧ c.val ≤ 126)
    (hs : Printable s) : Printable (c :: s) := by
  intro c' h
  rcases List.mem_cons.mp h with rfl | h
  · exact hc
  · exact hs c' h

theorem printable_nil : Printable [] := fun _ hc => absurd hc List.not_mem_nil

theorem Printable.flatMap {α : Type} {l : List α} {f : α → PyStr}
    (h : ∀ a ∈ l, Printable (f a)) : Printable (l.flatMap f) := by
  intro c hc
  obtain ⟨a, ha, hca⟩ := List.mem_flatMap.mp hc
  exact h a ha c hca

theorem printable_of_digits {ds : PyStr} (h : ∀ c ∈ ds, isDigit c = true) : Printable ds := by
  intro c hc
  have hrange := isDigit_iff.mp (h c hc)
  omega

theorem printable_intText (n : ℤ) : Printable (intText n) := by
  have hnat := printable_of_digits (whole_natText n.natAbs).digits
  unfold intText
  split_ifs
  · exact hnat.cons (by decide)
  · exact hnat

theorem printable_u {s : String}
    (h : (s.toList.all fun c => 32 ≤ c.toNat ∧ c.toNat ≤ 126) = true) : Printable (u s) := by
  intro c hc
  obtain ⟨d, hd, rfl⟩ := List.mem_map.mp hc
  exact of_decide_eq_true (List.all_eq_true.mp h d hd)

theorem printable_words {w : PyStr × PyVal Obj} (hw : w ∈ WORDS) : Printable w.1 := by
  simp only [WORDS, List.mem_cons, List.not_mem_nil, or_false] at hw
  rcases hw with rfl | rfl | rfl | rfl | rfl | rfl
  all_goals exact printable_u (by decide)

theorem printable_floatText (t : FloatText) : Printable t.text := by
  have hdigits (ds : List (Fin 10)) : Printable (ds.map digit) :=
    printable_of_digits fun _ hc => isDigit_of_mem_map hc
  have hexp : Printable (expText t.exp) := by
    rcases t.exp with _ | ⟨neg, ds⟩
    · exact printable_nil
    · cases neg
      all_goals exact ((hdigits ds).cons (by decide)).cons (by decide)
  have hsign : Printable (if t.neg then [45] else []) := by
    split_ifs
    · exact printable_nil.cons (by decide)
    · exact printable_nil
  have hfrac : Printable (if t.frac = [] then [] else 46 :: t.frac.map digit) := by
    split_ifs
    · exact printable_nil
    · exact (hdigits _).cons (by decide)
  exact ((hsign.append (hdigits _)).append hfrac).append hexp

theorem printable_float (x : JsonFloat) : Printable x.text := by
  cases x with
  | nan => exact @printable_words Unit (u "NaN", .float .nan) (by simp [WORDS])
  | inf neg =>
    cases neg with
    | true =>
      exact @printable_words Unit (u "-Infinity", .float (.inf true))
        (by simp [WORDS])
    | false =>
      exact @printable_words Unit (u "Infinity", .float (.inf false))
        (by simp [WORDS])
  | fin t => exact printable_floatText t

theorem printable_hexDigit (n : ℕ) : 32 ≤ (hexDigit n).val ∧ (hexDigit n).val ≤ 126 := by
  unfold hexDigit
  split_ifs
  · change 32 ≤ 48 + n ∧ 48 + n ≤ 126
    omega
  · change 32 ≤ 87 + n ∧ 87 + n ≤ 126
    omega
  · decide

theorem printable_unitText (n : ℕ) : Printable (unitText n) :=
  ((((((printable_nil.cons (printable_hexDigit _)).cons (printable_hexDigit _)).cons
    (printable_hexDigit _)).cons (printable_hexDigit _)).cons (by decide)).cons (by decide))

theorem printable_escape (c : CodePoint) : Printable (escape c) := by
  unfold escape
  cases hc : ESCAPES.lookup c with
  | some letter =>
    have hletters : (ESCAPES.all fun p => 32 ≤ p.2.val ∧ p.2.val ≤ 126) = true := by decide
    have hletter : 32 ≤ letter.val ∧ letter.val ≤ 126 :=
      of_decide_eq_true (List.all_eq_true.mp hletters _ (mem_of_lookup hc))
    exact (printable_nil.cons hletter).cons (by decide)
  | none =>
    simp only
    split_ifs with hascii
    · exact printable_nil.cons ⟨Fin.le_def.mp hascii.1, Fin.le_def.mp hascii.2⟩
    · exact printable_unitText _
    · exact (printable_unitText _).append (printable_unitText _)

theorem printable_quoted (s : PyStr) : Printable (quoted s) :=
  ((Printable.flatMap fun c _ => printable_escape c).append
    (printable_nil.cons (by decide))).cons (by decide)

theorem printable_commaSep {ts : List PyStr} (h : ∀ t ∈ ts, Printable t) :
    Printable (commaSep ts) := by
  cases ts with
  | nil => exact printable_nil
  | cons t rest =>
    refine (h t List.mem_cons_self).append (Printable.flatMap fun t ht => ?_)
    exact ((h _ (List.mem_cons_of_mem _ ht)).cons (by decide)).cons (by decide)

/-- The text of a value is printable ASCII. -/
theorem printable_print (v : PyVal Obj) : Printable (Interp.print v) := by
  induction v using PyVal.induct with
  | h v ih =>
    cases v with
    | none => exact printable_words (w := (u "null", (.none : PyVal Obj))) (by simp [WORDS])
    | bool b =>
      cases b with
      | true => exact printable_words (w := (u "true", (.bool true : PyVal Obj))) (by simp [WORDS])
      | false =>
        exact printable_words (w := (u "false", (.bool false : PyVal Obj))) (by simp [WORDS])
    | int n => exact printable_intText n
    | float x => exact printable_float x
    | str s => exact printable_quoted s
    | seq frozen xs =>
      rw [Interp.print, Interp.printList_eq_map, listText]
      refine Printable.cons (by decide) (Printable.append (printable_commaSep ?_)
        (printable_nil.cons (by decide)))
      intro t ht
      obtain ⟨w, hw, rfl⟩ := List.mem_map.mp ht
      exact ih w hw
    | dict items =>
      rw [Interp.print, Interp.printItems_eq_map, dictText]
      refine Printable.cons (by decide) (Printable.append (printable_commaSep ?_)
        (printable_nil.cons (by decide)))
      intro t ht
      obtain ⟨i, hi, rfl⟩ := List.mem_map.mp ht
      have hsep : Printable [58, 32] := (printable_nil.cons (by decide)).cons (by decide)
      exact ((printable_quoted _).append hsep).append (ih i.2 (List.mem_map_of_mem hi))
    | other o => exact printable_nil

/-! ## What is read of a value -/

mutual

/-- A value as it is read of the text that is written for it. -/
def readBack : PyVal Obj → PyVal Obj
  | .seq _ xs => .seq false (readBackList xs)
  | .dict items => .dict (asDict (readBackItems items))
  | .none => .none
  | .bool b => .bool b
  | .int n => .int n
  | .float x => .float x
  | .str s => .str (join s)
  | .other o => .other o

/-- The items of a list, as they are read. -/
def readBackList : List (PyVal Obj) → List (PyVal Obj)
  | [] => []
  | v :: rest => readBack v :: readBackList rest

/-- The items of a dict, as they are read. -/
def readBackItems : List (PyKey Obj × PyVal Obj) → List (PyStr × PyVal Obj)
  | [] => []
  | (k, v) :: rest => (join (Interp.keyText k), readBack v) :: readBackItems rest

end

theorem readBackList_eq_map (xs : List (PyVal Obj)) : readBackList xs = xs.map readBack := by
  induction xs with
  | nil => rfl
  | cons v rest ih => rw [readBackList, ih, List.map_cons]

theorem readBackItems_eq_map (items : List (PyKey Obj × PyVal Obj)) :
    readBackItems items = items.map fun i => (join (Interp.keyText i.1), readBack i.2) := by
  induction items with
  | nil => rfl
  | cons i rest ih => rw [readBackItems, ih, List.map_cons]

/-- A text that begins with no word. -/
theorem scanWord_eq_none {s : PyStr} (h : ∀ w ∈ @WORDS Obj, ¬ w.1 <+: s) :
    @scanWord Obj s = none := by
  unfold scanWord
  rw [List.findSome?_eq_none_iff]
  intro w hw
  rw [Option.map_eq_none_iff, Option.eq_none_iff_forall_not_mem]
  intro r hr
  obtain ⟨p, rfl, hp⟩ := List.dropPrefix?_eq_some_iff.mp hr
  rw [beq_iff_eq] at hp
  exact h w hw (hp ▸ List.prefix_append p r)

/-- A word is read as what it stands for. -/
theorem scanWord_append {w : PyStr × PyVal Obj} (hw : w ∈ WORDS) (tail : PyStr) :
    scanWord (w.1 ++ tail) = some (w.2, tail) := by
  simp only [WORDS, List.mem_cons, List.not_mem_nil, or_false] at hw
  rcases hw with rfl | rfl | rfl | rfl | rfl | rfl
  all_goals
    simp [scanWord, WORDS, u_null, u_true, u_false, u_nan, u_infinity, u_minus_infinity,
      List.dropPrefix?]

/-- A text that begins as a number does. -/
theorem head_number {ds : PyStr} (hds : Whole ds) (neg : Bool) (rest : PyStr) :
    ∃ c more, (if neg then [45] else []) ++ (ds ++ rest) = c :: more ∧ c ≠ 34 ∧ c ≠ 91 ∧ c ≠ 123 ∧
      @scanWord Obj (c :: more) = none := by
  cases ds with
  | nil => exact absurd rfl hds.ne
  | cons d ds =>
    have hd := hds.digits d List.mem_cons_self
    have hne : ∀ c, isDigit c = false → d ≠ c := by
      rintro c hc rfl
      rw [hd] at hc
      simp at hc
    cases neg with
    | true =>
      refine ⟨45, _, rfl, by decide, by decide, by decide, scanWord_eq_none fun w hw hpre => ?_⟩
      obtain ⟨c, more, hc, -, -, -, -, h73⟩ := head_word hw
      rw [hc] at hpre
      change c :: more <+: 45 :: (d :: ds ++ rest) at hpre
      rw [List.cons_prefix_cons] at hpre
      have hmore := h73 hpre.1
      cases more with
      | nil => simp at hmore
      | cons c' more =>
        rw [List.cons_append, List.cons_prefix_cons] at hpre
        rw [List.head?_cons, Option.some.injEq] at hmore
        exact hne 73 (by decide) (hpre.2.1.symm.trans hmore)
    | false =>
      refine ⟨d, _, rfl, hne _ (by decide), hne _ (by decide), hne _ (by decide),
        scanWord_eq_none fun w hw hpre => ?_⟩
      obtain ⟨c, more, hc, hdigit, -⟩ := head_word hw
      rw [hc, List.cons_prefix_cons] at hpre
      exact hne c hdigit hpre.1.symm

namespace Interp

variable (J : Interp Obj)

theorem scanValue_scalar {n d : ℕ} {s : PyStr} (h91 : s.head? ≠ some 91)
    (h123 : s.head? ≠ some 123) : J.scanValue (n + 1) d s = J.scanScalar s := by
  rw [scanValue.eq_def]
  simp only [if_neg h91, if_neg h123]

/-- A word is read. -/
theorem scanValue_word {w : PyStr × PyVal Obj} (hw : w ∈ WORDS) (n d : ℕ) (tail : PyStr) :
    J.scanValue (n + 1) d (w.1 ++ tail) = .ok (w.2, tail) := by
  have hword := scanWord_append hw tail
  obtain ⟨c, more, hc, -, h34, h91, h123, -⟩ := head_word hw
  rw [hc, List.cons_append] at hword ⊢
  rw [J.scanValue_scalar (by simpa using h91) (by simpa using h123), scanScalar, if_neg h34, hword]

/-- A text in quotes is read. -/
theorem scanValue_quoted (s : PyStr) (n d : ℕ) (tail : PyStr) :
    J.scanValue (n + 1) d (quoted s ++ tail) = .ok (.str (join s), tail) := by
  rw [quoted, List.cons_append, List.append_assoc, List.singleton_append,
    J.scanValue_scalar (by simp) (by simp), scanScalar, if_pos rfl, scanString_quoted]

/-- A number is read as its token says. -/
theorem scanValue_number {ds : PyStr} (hds : Whole ds) {neg : Bool} {rest : PyStr}
    {t : NumberToken} (ht : scanNumber ((if neg then [45] else []) ++ (ds ++ rest)) = some t)
    (n d : ℕ) :
    J.scanValue (n + 1) d ((if neg then [45] else []) ++ (ds ++ rest)) = J.number t := by
  obtain ⟨c, more, hc, h34, h91, h123, hword⟩ := @head_number Obj _ hds neg rest
  rw [hc] at ht ⊢
  rw [J.scanValue_scalar (by simpa using h91) (by simpa using h123), scanScalar, if_neg h34, hword,
    ht]

theorem intText_append (m : ℤ) (tail : PyStr) :
    intText m ++ tail = (if decide (m < 0) then [45] else []) ++ (natText m.natAbs ++ tail) := by
  unfold intText
  by_cases h : m < 0
  · rw [if_pos h, decide_eq_true h]
    rfl
  · rw [if_neg h, decide_eq_false h]
    rfl

/-- An integer is read back. -/
theorem scanValue_int {m : ℤ} (hm : (natText m.natAbs).length ≤ J.maxDigits) (n d : ℕ)
    {tail : PyStr} (ht : Stops tail) :
    J.scanValue (n + 1) d (intText m ++ tail) = .ok (.int m, tail) := by
  have hwhole := whole_natText m.natAbs
  rw [intText_append, J.scanValue_number hwhole (scanNumber_int hwhole _ ht), number,
    if_pos ⟨rfl, rfl⟩, if_neg (Nat.not_lt.mpr hm), ofDigits_natText]
  by_cases h : m < 0
  · have habs : -(m.natAbs : ℤ) = m := by omega
    rw [decide_eq_true h, if_pos rfl, if_neg (List.cons_ne_nil 45 []), habs]
  · have habs : (m.natAbs : ℤ) = m := by omega
    rw [decide_eq_false h, if_neg Bool.false_ne_true, if_pos rfl, habs]

/-- A finite float is read back. -/
theorem scanValue_float (t : FloatText) (n d : ℕ) {tail : PyStr} (ht : Stops tail) :
    J.scanValue (n + 1) d (t.text ++ tail) = .ok (.float (.fin t), tail) := by
  have htoken := scanNumber_float t ht
  have htext : t.text ++ tail = (if t.neg then [45] else []) ++ (t.whole.map digit ++
      ((if t.frac = [] then [] else 46 :: t.frac.map digit) ++ (expText t.exp ++ tail))) := by
    simp only [FloatText.text, List.append_assoc]
  rw [htext] at htoken ⊢
  rw [J.scanValue_number (whole_floatText t) htoken, number, if_neg, ← FloatText.text,
    J.toFloat_text]
  rintro ⟨hfrac, hexp⟩
  obtain hf | he := t.isFloat
  · simp [hf] at hfrac
  · obtain ⟨e, he⟩ := Option.isSome_iff_exists.mp he
    simp [he, expText] at hexp

/-- What stands in front of the text of a value is no white space, and no end of a list. -/
theorem head_print {v : PyVal Obj} (hv : J.Writable v) :
    ∃ c more, print v = c :: more ∧ isBlank c = false ∧ c ≠ 93 := by
  have hnumber {ds : PyStr} (hds : Whole ds) (neg : Bool) (rest : PyStr) :
      ∃ c more, (if neg then [45] else []) ++ (ds ++ rest) = c :: more ∧ isBlank c = false ∧
        c ≠ 93 := by
    cases neg with
    | true => exact ⟨45, _, rfl, by decide, by decide⟩
    | false =>
      cases ds with
      | nil => exact absurd rfl hds.ne
      | cons c ds =>
        have hc := isDigit_iff.mp (hds.digits c List.mem_cons_self)
        refine ⟨c, _, rfl, ?_, ?_⟩
        · rw [← Bool.not_eq_true]
          intro hb
          simp only [isBlank, Bool.or_eq_true, decide_eq_true_eq] at hb
          rcases hb with ((rfl | rfl) | rfl) | rfl
          all_goals exact absurd hc (by decide)
        · rintro rfl
          exact absurd hc (by decide)
  have hword {w : PyStr × PyVal Obj} (hw : w ∈ WORDS) :
      ∃ c more, w.1 = c :: more ∧ isBlank c = false ∧ c ≠ 93 := by
    simp only [WORDS, List.mem_cons, List.not_mem_nil, or_false] at hw
    rcases hw with rfl | rfl | rfl | rfl | rfl | rfl
    all_goals
      simp only [u_null, u_true, u_false, u_nan, u_infinity, u_minus_infinity]
      exact ⟨_, _, rfl, by decide, by decide⟩
  cases v with
  | none => exact hword (w := (u "null", .none)) (by simp [WORDS])
  | bool b =>
    cases b with
    | true => exact hword (w := (u "true", .bool true)) (by simp [WORDS])
    | false => exact hword (w := (u "false", .bool false)) (by simp [WORDS])
  | int n =>
    have h := intText_append n []
    rw [List.append_nil, List.append_nil] at h
    rw [print, h]
    simpa using hnumber (whole_natText n.natAbs) (decide (n < 0)) []
  | float x =>
    cases x with
    | nan => exact hword (w := (u "NaN", .float .nan)) (by simp [WORDS])
    | inf neg =>
      cases neg with
      | true => exact hword (w := (u "-Infinity", .float (.inf true))) (by simp [WORDS])
      | false => exact hword (w := (u "Infinity", .float (.inf false))) (by simp [WORDS])
    | fin t =>
      simp only [print, JsonFloat.text, FloatText.text, List.append_assoc]
      exact hnumber (whole_floatText t) t.neg _
  | str s => exact ⟨34, _, rfl, by decide, by decide⟩
  | seq frozen xs => exact ⟨91, _, rfl, by decide, by decide⟩
  | dict items => exact ⟨123, _, rfl, by decide, by decide⟩
  | other o => exact hv.here.elim

/-- There is no white space in front of the text of a value. -/
theorem skipBlanks_print {v : PyVal Obj} (hv : J.Writable v) (s : PyStr) :
    skipBlanks (print v ++ s) = print v ++ s := by
  obtain ⟨c, more, hc, hb, -⟩ := J.head_print hv
  rw [hc]
  exact List.dropWhile_cons_of_neg (by simp [hb])

/-- The text of this value is read back, whatever follows it. -/
def ReadsBack (v : PyVal Obj) : Prop :=
  ∀ (d n : ℕ) (tail : PyStr), v.NestedIn d → 2 * (print v).length ≤ n → Stops tail →
    J.scanValue n d (print v ++ tail) = .ok (readBack v, tail)

theorem skipBlanks_cons {c : CodePoint} (hc : isBlank c = false) (s : PyStr) :
    skipBlanks (c :: s) = c :: s := List.dropWhile_cons_of_neg (by simp [hc])

theorem stops_cons {c : CodePoint} (hc : isDigit c = false ∧ c ≠ 46 ∧ c ≠ 101 ∧ c ≠ 69)
    (s : PyStr) : Stops (c :: s) := by
  intro c' h
  obtain rfl := Option.some.inj h
  exact hc

/-- The items of a list are read back. -/
theorem scanElements_print (tail : PyStr) {v : PyVal Obj} {rest : List (PyVal Obj)} {d n : ℕ}
    (hw : ∀ w ∈ v :: rest, J.Writable w) (hback : ∀ w ∈ v :: rest, J.ReadsBack w)
    (hd : ∀ w ∈ v :: rest, w.NestedIn d)
    (hn : 2 * (commaSep ((v :: rest).map print)).length + 1 ≤ n) :
    J.scanElements n d (commaSep ((v :: rest).map print) ++ 93 :: tail) =
      .ok ((v :: rest).map readBack, tail) := by
  induction rest generalizing v n with
  | nil =>
    obtain ⟨n, rfl⟩ : ∃ m, n = m + 1 := ⟨n - 1, by omega⟩
    simp only [List.map_cons, List.map_nil, commaSep, List.flatMap_nil, List.append_nil] at hn ⊢
    have hv := hback v List.mem_cons_self d n (93 :: tail) (hd v List.mem_cons_self) (by omega)
      (stops_cons (by decide) tail)
    rw [scanElements, hv]
    simp [bind, Except.bind, pure, Except.pure, skipBlanks_cons (c := 93) (by decide)]
  | cons w rest ih =>
    obtain ⟨n, rfl⟩ : ∃ m, n = m + 1 := ⟨n - 1, by omega⟩
    have htext : commaSep ((v :: w :: rest).map print) =
        print v ++ 44 :: 32 :: commaSep ((w :: rest).map print) := by
      simp [commaSep]
    rw [htext] at hn ⊢
    rw [List.length_append, List.length_cons, List.length_cons] at hn
    have hv := hback v List.mem_cons_self d n
      (44 :: 32 :: (commaSep ((w :: rest).map print) ++ 93 :: tail)) (hd v List.mem_cons_self)
      (by omega) (stops_cons (by decide) _)
    have hrest := @ih w n (fun x hx => hw x (List.mem_cons_of_mem v hx))
      (fun x hx => hback x (List.mem_cons_of_mem v hx))
      (fun x hx => hd x (List.mem_cons_of_mem v hx)) (by omega)
    have hskip : skipBlanks (32 :: (commaSep ((w :: rest).map print) ++ 93 :: tail)) =
        commaSep ((w :: rest).map print) ++ 93 :: tail := by
      rw [List.map_cons, commaSep, List.append_assoc]
      exact (List.dropWhile_cons_of_pos (by decide)).trans
        (J.skipBlanks_print (hw w (by simp)) _)
    rw [List.append_assoc, List.cons_append, List.cons_append, List.map_cons (f := readBack)]
    generalize commaSep ((w :: rest).map print) = t at hv hskip hrest ⊢
    rw [scanElements, hv]
    simp [bind, Except.bind, pure, Except.pure, skipBlanks_cons (c := 44) (by decide), hskip, hrest]

/-- The items of a dict are read back. -/
theorem scanMembers_print (tail : PyStr) {i : PyKey Obj × PyVal Obj}
    {rest : List (PyKey Obj × PyVal Obj)} {d n : ℕ} (hw : ∀ j ∈ i :: rest, J.Writable j.2)
    (hback : ∀ j ∈ i :: rest, J.ReadsBack j.2) (hd : ∀ j ∈ i :: rest, j.2.NestedIn d)
    (hn : 2 * (commaSep (printItems (i :: rest))).length ≤ n) :
    J.scanMembers n d (commaSep (printItems (i :: rest)) ++ 125 :: tail) =
      .ok (readBackItems (i :: rest), tail) := by
  -- An item and what follows it, up to the end of its value.
  have hitem (j : PyKey Obj × PyVal Obj) (s : PyStr) :
      itemText (keyText j.1) (print j.2) ++ s =
        34 :: ((keyText j.1).flatMap escape ++ 34 :: 58 :: 32 :: (print j.2 ++ s)) := by
    simp [itemText, quoted]
  have hlen (j : PyKey Obj × PyVal Obj) :
      (print j.2).length + 4 ≤ (itemText (keyText j.1) (print j.2)).length := by
    simp only [itemText, quoted, List.length_append, List.length_cons, List.length_nil]
    omega
  have hskip {j : PyKey Obj × PyVal Obj} (hj : J.Writable j.2) (s : PyStr) :
      skipBlanks (32 :: (print j.2 ++ s)) = print j.2 ++ s :=
    (List.dropWhile_cons_of_pos (by decide)).trans (J.skipBlanks_print hj s)
  induction rest generalizing i n with
  | nil =>
    have hi := hlen i
    simp only [printItems, commaSep, List.flatMap_nil, List.append_nil] at hn ⊢
    obtain ⟨n, rfl⟩ : ∃ m, n = m + 1 := ⟨n - 1, by omega⟩
    have hv := hback i List.mem_cons_self d n (125 :: tail) (hd i List.mem_cons_self) (by omega)
      (stops_cons (by decide) tail)
    have hsp := hskip (hw i List.mem_cons_self) (125 :: tail)
    rw [hitem, scanMembers, if_pos List.head?_cons, List.tail_cons, scanString_quoted]
    simp [bind, Except.bind, pure, Except.pure, skipBlanks_cons (c := 58) (by decide), hsp, hv,
      skipBlanks_cons (c := 125) (by decide), readBackItems]
  | cons j rest ih =>
    have hi := hlen i
    have htext : commaSep (printItems (i :: j :: rest)) =
        itemText (keyText i.1) (print i.2) ++ 44 :: 32 :: commaSep (printItems (j :: rest)) := by
      simp [printItems, commaSep]
    rw [htext] at hn ⊢
    rw [List.length_append, List.length_cons, List.length_cons] at hn
    obtain ⟨n, rfl⟩ : ∃ m, n = m + 1 := ⟨n - 1, by omega⟩
    have hv := hback i List.mem_cons_self d n
      (44 :: 32 :: (commaSep (printItems (j :: rest)) ++ 125 :: tail)) (hd i List.mem_cons_self)
      (by omega) (stops_cons (by decide) _)
    have hsp := hskip (hw i List.mem_cons_self)
      (44 :: 32 :: (commaSep (printItems (j :: rest)) ++ 125 :: tail))
    have hrest := @ih j n (fun x hx => hw x (List.mem_cons_of_mem i hx))
      (fun x hx => hback x (List.mem_cons_of_mem i hx))
      (fun x hx => hd x (List.mem_cons_of_mem i hx)) (by omega)
    have hsep : skipBlanks (32 :: (commaSep (printItems (j :: rest)) ++ 125 :: tail)) =
        commaSep (printItems (j :: rest)) ++ 125 :: tail := by
      rw [printItems, commaSep, List.append_assoc, hitem]
      exact (List.dropWhile_cons_of_pos (by decide)).trans (skipBlanks_cons (by decide) _)
    rw [List.append_assoc, List.cons_append, List.cons_append,
      show readBackItems (i :: j :: rest) =
        (join (keyText i.1), readBack i.2) :: readBackItems (j :: rest) from rfl]
    generalize commaSep (printItems (j :: rest)) = t at hv hsp hsep hrest ⊢
    rw [hitem, scanMembers, if_pos List.head?_cons, List.tail_cons, scanString_quoted]
    simp [bind, Except.bind, pure, Except.pure, skipBlanks_cons (c := 58) (by decide), hsp, hv,
      skipBlanks_cons (c := 44) (by decide), hsep, hrest]

/-- A list is read back when its items are. -/
theorem readsBack_seq {frozen : Bool} {xs : List (PyVal Obj)} (hxs : ∀ w ∈ xs, J.Writable w)
    (hback : ∀ w ∈ xs, J.ReadsBack w) : J.ReadsBack (.seq frozen xs) := by
  intro d n tail hd hn ht
  obtain ⟨d, rfl⟩ : ∃ e, d = e + 1 := by
    cases d with
    | zero => exact absurd hd (PyVal.not_nestedIn_zero_seq frozen xs)
    | succ d => exact ⟨d, rfl⟩
  rw [PyVal.nestedIn_seq] at hd
  rw [print, printList_eq_map, listText, List.length_cons, List.length_append,
    List.length_singleton] at hn
  obtain ⟨n, rfl⟩ : ∃ m, n = m + 1 := ⟨n - 1, by omega⟩
  rw [print, printList_eq_map, listText, List.cons_append, List.append_assoc,
    List.singleton_append, readBack, readBackList_eq_map, scanValue.eq_def]
  cases xs with
  | nil => simp [commaSep, skipBlanks_cons (c := 93) (by decide), pure, Except.pure]
  | cons w rest =>
    have helems := J.scanElements_print (n := n) tail hxs hback hd (by omega)
    have hstart : ∃ c more, commaSep ((w :: rest).map print) ++ 93 :: tail = c :: more ∧
        isBlank c = false ∧ c ≠ 93 := by
      obtain ⟨c, more, hc, hb, h93⟩ := J.head_print (hxs w List.mem_cons_self)
      rw [List.map_cons, commaSep, hc]
      exact ⟨c, _, rfl, hb, h93⟩
    obtain ⟨c, more, hc, hb, h93⟩ := hstart
    rw [hc] at helems ⊢
    simp [skipBlanks_cons hb, h93, helems, bind, Except.bind, pure, Except.pure]

/-- A dict is read back when its values are. -/
theorem readsBack_dict {items : List (PyKey Obj × PyVal Obj)}
    (hitems : ∀ i ∈ items, J.Writable i.2) (hback : ∀ i ∈ items, J.ReadsBack i.2) :
    J.ReadsBack (.dict items) := by
  intro d n tail hd hn ht
  obtain ⟨d, rfl⟩ : ∃ e, d = e + 1 := by
    cases d with
    | zero => exact absurd hd (PyVal.not_nestedIn_zero_dict items)
    | succ d => exact ⟨d, rfl⟩
  rw [PyVal.nestedIn_dict] at hd
  rw [print, dictText, List.length_cons, List.length_append, List.length_singleton] at hn
  obtain ⟨n, rfl⟩ : ∃ m, n = m + 1 := ⟨n - 1, by omega⟩
  rw [print, dictText, List.cons_append, List.append_assoc, List.singleton_append, readBack,
    scanValue.eq_def]
  cases items with
  | nil =>
    simp [printItems, commaSep, skipBlanks_cons (c := 125) (by decide), pure, Except.pure,
      readBackItems, asDict]
  | cons i rest =>
    have hmembers := J.scanMembers_print (n := n) tail hitems hback hd (by omega)
    have hstart : ∃ more, commaSep (printItems (i :: rest)) ++ 125 :: tail = 34 :: more := by
      simp [printItems, commaSep, itemText, quoted]
    obtain ⟨more, hmore⟩ := hstart
    rw [hmore] at hmembers ⊢
    simp [skipBlanks_cons (c := 34) (by decide), hmembers, bind, Except.bind, pure, Except.pure]

/-- A value of at least one character is read back when the fuel for one step is enough. -/
theorem readsBack_of_step {v : PyVal Obj} (hv : J.Writable v)
    (h : ∀ (d n : ℕ) (tail : PyStr), Stops tail →
      J.scanValue (n + 1) d (print v ++ tail) = .ok (readBack v, tail)) : J.ReadsBack v := by
  intro d n tail _ hn ht
  obtain ⟨c, more, hc, -⟩ := J.head_print hv
  rw [hc, List.length_cons] at hn
  obtain ⟨n, rfl⟩ : ∃ m, n = m + 1 := ⟨n - 1, by omega⟩
  exact h d n tail ht

/-- What was written is read back, whatever follows it. -/
theorem readsBack {v : PyVal Obj} (hv : J.Writable v) : J.ReadsBack v := by
  have hword {w : PyStr × PyVal Obj} (hw : w ∈ WORDS) (d n : ℕ) (tail : PyStr) :
      J.scanValue (n + 1) d (w.1 ++ tail) = .ok (w.2, tail) := J.scanValue_word hw n d tail
  induction v using PyVal.induct with
  | h v ih =>
    cases v with
    | none =>
      exact J.readsBack_of_step hv fun d n tail _ =>
        hword (w := (u "null", .none)) (by simp [WORDS]) d n tail
    | bool b =>
      cases b with
      | true =>
        exact J.readsBack_of_step hv fun d n tail _ =>
          hword (w := (u "true", .bool true)) (by simp [WORDS]) d n tail
      | false =>
        exact J.readsBack_of_step hv fun d n tail _ =>
          hword (w := (u "false", .bool false)) (by simp [WORDS]) d n tail
    | int m => exact J.readsBack_of_step hv fun d n tail ht => J.scanValue_int hv.here n d ht
    | float x =>
      refine J.readsBack_of_step hv fun d n tail ht => ?_
      cases x with
      | nan => exact hword (w := (u "NaN", .float .nan)) (by simp [WORDS]) d n tail
      | inf neg =>
        cases neg with
        | true =>
          exact hword (w := (u "-Infinity", .float (.inf true))) (by simp [WORDS]) d n tail
        | false =>
          exact hword (w := (u "Infinity", .float (.inf false))) (by simp [WORDS]) d n tail
      | fin t => exact J.scanValue_float t n d ht
    | str s => exact J.readsBack_of_step hv fun d n tail _ => J.scanValue_quoted s n d tail
    | seq frozen xs =>
      have hxs := J.writable_seq.mp hv
      exact J.readsBack_seq hxs fun w hw => ih w hw (hxs w hw)
    | dict items =>
      have hitems := J.writable_dict.mp hv
      exact J.readsBack_dict (fun i hi => (hitems i hi).2) fun i hi =>
        ih i.2 (List.mem_map_of_mem hi) (hitems i hi).2
    | other o => exact hv.here.elim

/-- A text that was written is read back, when it is not too deep for the decoder. -/
theorem loads_print {v : PyVal Obj} (hv : J.Writable v) (hd : v.NestedIn J.loadsDepth) :
    J.loads (print v) = .ok (readBack v) := by
  have hread := J.readsBack hv J.loadsDepth (2 * (print v).length + 2) [] hd (by omega)
    fun c hc => by simp at hc
  have hskip := J.skipBlanks_print hv []
  rw [List.append_nil] at hread hskip
  have hbom : (print v).head? ≠ some 0xfeff := by
    intro h
    have hascii := printable_print v _ (List.mem_of_mem_head? h)
    exact absurd hascii (by decide)
  unfold loads
  rw [if_neg hbom, hskip, hread]
  simp [bind, Except.bind, pure, Except.pure, skipBlanks]

end Interp

/-! ## Values without pairs of surrogates -/

/-- A value whose texts have no pairs when those in it have none. -/
def JoinedNode : PyVal Obj → Prop
  | .str s => Joined s
  | .dict items => ∀ i ∈ items, ∀ s, i.1 = .str s → Joined s
  | _ => True

/-- A value in whose texts no high surrogate has a low one behind it. -/
def JoinedVal (v : PyVal Obj) : Prop := v.Each JoinedNode

/-- There are no pairs in what is read of a text that was written. -/
theorem joinedVal_readBack (v : PyVal Obj) : JoinedVal (readBack v) := by
  induction v using PyVal.induct with
  | h v ih =>
    cases v with
    | str s => exact ⟨_, joined_join s, fun w hw => absurd hw List.not_mem_nil⟩
    | seq frozen xs =>
      refine ⟨_, trivial, fun w hw => ?_⟩
      rw [readBack, readBackList_eq_map] at hw
      obtain ⟨x, hx, rfl⟩ := List.mem_map.mp (show w ∈ xs.map readBack from hw)
      exact ih x hx
    | dict items =>
      have hmem := (jsonNode_asDict (readBackItems items)).2
      refine ⟨_, fun i hi s hs => ?_, fun w hw => ?_⟩
      · obtain ⟨j, hj, hij⟩ := key_of_mem_asDict hi
        rw [readBackItems_eq_map] at hj
        obtain ⟨l, hl, rfl⟩ := List.mem_map.mp hj
        obtain rfl := PyKey.str.inj (hij.symm.trans hs)
        exact joined_join _
      · obtain ⟨i, hi, rfl⟩ := List.mem_map.mp hw
        obtain ⟨j, hj, hij⟩ := hmem i hi
        rw [readBackItems_eq_map] at hj
        obtain ⟨l, hl, rfl⟩ := List.mem_map.mp hj
        rw [hij]
        exact ih l.2 (List.mem_map_of_mem hl)
    | _ => exact ⟨_, trivial, fun w hw => absurd hw List.not_mem_nil⟩

/-- A value of JSON without pairs is read back as it was. -/
theorem readBack_eq_self {v : PyVal Obj} (hv : IsJson v) (hj : JoinedVal v) : readBack v = v := by
  induction v using PyVal.induct with
  | h v ih =>
    cases v with
    | str s => rw [readBack, join_of_joined hj.here]
    | seq frozen xs =>
      have hfrozen : frozen = false := hv.here
      have hxs : xs.map readBack = xs := by
        conv_rhs => rw [← List.map_id xs]
        exact List.map_congr_left fun w hw => ih w hw (hv.inside hw) (hj.inside hw)
      rw [readBack, readBackList_eq_map, hxs, hfrozen]
    | dict items =>
      obtain ⟨hkeys, hnd⟩ := hv.here
      have hback : (readBackItems items).map (fun i => ((.str i.1 : PyKey Obj), i.2)) = items := by
        rw [readBackItems_eq_map, List.map_map]
        conv_rhs => rw [← List.map_id items]
        refine List.map_congr_left fun i hi => ?_
        obtain ⟨s, hs⟩ := hkeys i hi
        have hjs := hj.here i hi s hs
        have hval := ih i.2 (List.mem_map_of_mem hi) (hv.inside (List.mem_map_of_mem hi))
          (hj.inside (List.mem_map_of_mem hi))
        simp only [Function.comp_apply, hs, Interp.keyText, join_of_joined hjs, hval, id]
        rw [← hs]
      have hnd' : ((readBackItems items).map Prod.fst).Nodup := by
        have hmap : ((readBackItems items).map Prod.fst).map PyKey.str = items.map Prod.fst := by
          conv_rhs => rw [← hback]
          simp only [List.map_map, Function.comp_def]
        exact List.Nodup.of_map _ (hmap ▸ hnd)
      rw [readBack, asDict_of_nodup hnd', hback]
    | other o => exact hv.here.elim
    | _ => rfl

/-- A value of JSON is read back as it was exactly when there are no pairs in it. -/
theorem readBack_eq_self_iff {v : PyVal Obj} (hv : IsJson v) : readBack v = v ↔ JoinedVal v :=
  ⟨fun h => h ▸ joinedVal_readBack v, readBack_eq_self hv⟩

/-! ## Values up to the order of their keys -/

theorem getItem_eq_some {key : PyStr} {items : List (PyKey Obj × PyVal Obj)} {v : PyVal Obj}
    (hnd : (items.map Prod.fst).Nodup) : getItem key items = some v ↔ (.str key, v) ∈ items := by
  unfold getItem
  constructor
  · intro h
    obtain ⟨i, hi, rfl⟩ := Option.map_eq_some_iff.mp h
    have hkey := List.find?_some hi
    rw [decide_eq_true_eq, keyStr_eq_some] at hkey
    rw [← hkey]
    exact List.mem_of_find?_eq_some hi
  · intro h
    cases hf : items.find? fun i => keyStr i.1 = some key with
    | none =>
      have hno := List.find?_eq_none.mp hf _ h
      simp [keyStr] at hno
    | some i =>
      have hkey := List.find?_some hf
      rw [decide_eq_true_eq, keyStr_eq_some] at hkey
      have hi := List.mem_of_find?_eq_some hf
      rw [Option.map_some, List.inj_on_of_nodup_map hnd hi h hkey]

theorem isJson_sortKeys {v : PyVal Obj} (hv : IsJson v) : IsJson (sortKeys v) := by
  induction v using PyVal.induct with
  | h v ih =>
    cases v with
    | seq frozen xs =>
      refine ⟨_, hv.here, fun w hw => ?_⟩
      rw [sortKeys, sortKeysList_eq_map] at hw
      obtain ⟨x, hx, rfl⟩ := List.mem_map.mp (show w ∈ xs.map sortKeys from hw)
      exact ih x hx (hv.inside hx)
    | dict items =>
      rw [sortKeys, sortKeysItems_eq_map, sortByKey_map]
      refine isJson_dict ⟨fun i hi => ?_, ?_⟩ fun i hi => ?_
      · obtain ⟨j, hj, rfl⟩ := List.mem_map.mp hi
        exact hv.here.1 j (mem_sortByKey.mp hj)
      · rw [List.map_map]
        exact ((perm_sortByKey items).map Prod.fst).nodup_iff.mpr hv.here.2
      · obtain ⟨j, hj, rfl⟩ := List.mem_map.mp hi
        have hmem : j.2 ∈ (PyVal.dict items).children := List.mem_map_of_mem (mem_sortByKey.mp hj)
        exact ih j.2 hmem (hv.inside hmem)
    | _ => exact hv

theorem joinedVal_sortKeys {v : PyVal Obj} (hv : JoinedVal v) : JoinedVal (sortKeys v) := by
  induction v using PyVal.induct with
  | h v ih =>
    cases v with
    | seq frozen xs =>
      refine ⟨_, trivial, fun w hw => ?_⟩
      rw [sortKeys, sortKeysList_eq_map] at hw
      obtain ⟨x, hx, rfl⟩ := List.mem_map.mp (show w ∈ xs.map sortKeys from hw)
      exact ih x hx (hv.inside hx)
    | dict items =>
      rw [sortKeys, sortKeysItems_eq_map, sortByKey_map]
      refine ⟨_, fun i hi => ?_, fun w hw => ?_⟩
      · obtain ⟨j, hj, rfl⟩ := List.mem_map.mp hi
        exact hv.here j (mem_sortByKey.mp hj)
      · obtain ⟨i, hi, rfl⟩ := List.mem_map.mp hw
        obtain ⟨j, hj, rfl⟩ := List.mem_map.mp hi
        have hmem : j.2 ∈ (PyVal.dict items).children := List.mem_map_of_mem (mem_sortByKey.mp hj)
        exact ih j.2 hmem (hv.inside hmem)
    | _ => exact hv

theorem nestedIn_sortKeys {v : PyVal Obj} {d : ℕ} :
    (sortKeys v).NestedIn d ↔ v.NestedIn d := by
  induction v using PyVal.induct generalizing d with
  | h v ih =>
    cases v with
    | seq frozen xs =>
      rw [sortKeys, sortKeysList_eq_map]
      cases d with
      | zero => simp only [PyVal.not_nestedIn_zero_seq]
      | succ d =>
        rw [PyVal.nestedIn_seq, PyVal.nestedIn_seq, List.forall_mem_map]
        exact forall₂_congr fun x hx => ih x hx
    | dict items =>
      rw [sortKeys, sortKeysItems_eq_map, sortByKey_map]
      cases d with
      | zero => simp only [PyVal.not_nestedIn_zero_dict]
      | succ d =>
        rw [PyVal.nestedIn_dict, PyVal.nestedIn_dict, List.forall_mem_map]
        simp only [mem_sortByKey]
        exact forall₂_congr fun i hi => ih i.2 (List.mem_map_of_mem hi)
    | _ => exact Iff.rfl

namespace Interp

variable (J : Interp Obj)

theorem writable_sortKeys {v : PyVal Obj} : J.Writable (sortKeys v) ↔ J.Writable v := by
  induction v using PyVal.induct with
  | h v ih =>
    cases v with
    | seq frozen xs =>
      rw [sortKeys, sortKeysList_eq_map, J.writable_seq, J.writable_seq, List.forall_mem_map]
      exact forall₂_congr fun x hx => ih x hx
    | dict items =>
      rw [sortKeys, sortKeysItems_eq_map, sortByKey_map, J.writable_dict, J.writable_dict,
        List.forall_mem_map]
      simp only [mem_sortByKey]
      exact forall₂_congr fun i hi => and_congr_right fun _ => ih i.2 (List.mem_map_of_mem hi)
    | _ => exact Iff.rfl

/-- The text with sorted keys is the same for two values of JSON only when these are the same up to
the order of their keys. -/
theorem sortKeys_inj {v w : PyVal Obj} (hv : IsJson v) (hw : IsJson w) (hjv : JoinedVal v)
    (hjw : JoinedVal w) {t : PyStr} (htv : J.dumps J.sorted v = .ok t)
    (htw : J.dumps J.sorted w = .ok t) : sortKeys v = sortKeys w := by
  -- The text is read back as the one and as the other.
  have hread {v : PyVal Obj} (hv : IsJson v) (hjv : JoinedVal v)
      (ht : J.dumps J.sorted v = .ok t) :
      J.scanValue (2 * t.length) J.dumpsDepth t = .ok (sortKeys v, []) := by
    obtain ⟨⟨hwr, hd⟩, rfl⟩ := (J.encode_sorted_eq_ok hv).mp ht
    have hback := J.readsBack (J.writable_sortKeys.mpr hwr) J.dumpsDepth
      (2 * (print (sortKeys v)).length) [] (nestedIn_sortKeys.mpr hd) le_rfl
      fun c hc => by simp at hc
    rw [List.append_nil, readBack_eq_self (isJson_sortKeys hv) (joinedVal_sortKeys hjv)] at hback
    exact hback
  have heq := (hread hv hjv htv).symm.trans (hread hw hjw htw)
  exact (Prod.mk.inj (Except.ok.inj heq)).1

end Interp

/-- Two dicts that are the same up to the order of their keys have the same under each key. -/
theorem getItem_of_sortKeys_eq {items items' : List (PyKey Obj × PyVal Obj)}
    (hnd : (items.map Prod.fst).Nodup) (hnd' : (items'.map Prod.fst).Nodup)
    (h : sortKeys (.dict items) = sortKeys (.dict items')) {key : PyStr} {v v' : PyVal Obj}
    (hv : getItem key items = some v) (hv' : getItem key items' = some v') :
    sortKeys v = sortKeys v' := by
  rw [sortKeys, sortKeys, PyVal.dict.injEq, sortKeysItems_eq_map, sortKeysItems_eq_map,
    sortByKey_map, sortByKey_map] at h
  have hmem : (.str key, sortKeys v) ∈ (sortByKey items).map fun i => (i.1, sortKeys i.2) :=
    List.mem_map.mpr ⟨_, mem_sortByKey.mpr ((getItem_eq_some hnd).mp hv), rfl⟩
  rw [h] at hmem
  obtain ⟨j, hj, hjv⟩ := List.mem_map.mp hmem
  obtain ⟨hkey, hval⟩ := Prod.mk.inj hjv
  have hj' := (getItem_eq_some hnd').mp hv'
  have heq := List.inj_on_of_nodup_map hnd' (mem_sortByKey.mp hj) hj' hkey
  rw [← hval, heq]

theorem getItem_cons (key : PyStr) (i : PyKey Obj × PyVal Obj)
    (items : List (PyKey Obj × PyVal Obj)) :
    getItem key (i :: items) = if keyStr i.1 = some key then some i.2 else getItem key items := by
  unfold getItem
  rw [List.find?_cons]
  split_ifs with h
  · simp [h]
  · simp [h]

/-- The other keys keep what they have when an item is set. -/
theorem getItem_setItem_of_ne {key k : PyStr} (hk : k ≠ key) (value : PyVal Obj)
    (items : List (PyKey Obj × PyVal Obj)) :
    getItem k (setItem key value items) = getItem k items := by
  induction items with
  | nil =>
    rw [setItem, getItem_cons, if_neg]
    intro h
    exact hk (Option.some.inj h).symm
  | cons j rest ih =>
    obtain ⟨k', v⟩ := j
    rw [setItem]
    split_ifs with h
    · have hne : keyStr k' ≠ some k := by
        rw [h, ne_eq, Option.some.injEq]
        exact fun e => hk e.symm
      rw [getItem_cons, getItem_cons, if_neg hne, if_neg hne]
    · rw [getItem_cons, getItem_cons, ih]

/-- What a key has after it was set. -/
theorem getItem_setItem (key : PyStr) (value : PyVal Obj) (items : List (PyKey Obj × PyVal Obj)) :
    getItem key (setItem key value items) = some value := by
  induction items with
  | nil => simp [setItem, getItem_cons, keyStr]
  | cons j rest ih =>
    obtain ⟨k', v⟩ := j
    rw [setItem]
    split_ifs with h
    · rw [getItem_cons, if_pos h]
    · rw [getItem_cons, if_neg h, ih]

/-- Dropping another key and setting an item can be done in either order. -/
theorem filter_setItem {key k : PyStr} (hk : key ≠ k) (value : PyVal Obj)
    (items : List (PyKey Obj × PyVal Obj)) :
    (setItem key value items).filter (fun i => keyStr i.1 ≠ some k) =
      setItem key value (items.filter fun i => keyStr i.1 ≠ some k) := by
  induction items with
  | nil =>
    have hkey : keyStr (.str key : PyKey Obj) ≠ some k := fun h => hk (Option.some.inj h)
    simp [setItem, hkey]
  | cons j rest ih =>
    obtain ⟨k', v⟩ := j
    by_cases h : keyStr k' = some key
    · have hne : keyStr k' ≠ some k := by
        rw [h, ne_eq, Option.some.injEq]
        exact hk
      simp [setItem, h, hk]
    · by_cases hkk : keyStr k' = some k
      · simp only [ne_eq, decide_not] at ih
        have hkey : k ≠ key := fun e => hk e.symm
        simp [setItem, hkk, ih, hkey]
      · simp only [ne_eq, decide_not] at ih
        simp [setItem, h, hkk, ih]

/-- An interpreter for concrete runs, in which an object is its text. -/
def textInterp : Interp PyStr where
  maxDigits := 4300
  dumpsDepth := 990
  loadsDepth := 990
  digitsError := u "Exceeds the limit (4300 digits) for integer string conversion"
  depthError := u "maximum recursion depth exceeded while encoding a JSON object"
  keyError _ := u "keys must be str, int, float, bool or None"
  typeError _ := u "Object is not JSON serializable"
  str o := .ok o
  sortOther _ := .error (u "'<' not supported between instances")
  toFloat := readFloat
  toFloat_text := readFloat_text

end ControlPlane.JsonText
