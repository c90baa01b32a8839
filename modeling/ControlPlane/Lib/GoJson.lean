import ControlPlane.Lib.JsonRoundTrip

/-!
# The JSON texts of Go

What `json.Marshal` of Go writes for a map from texts to texts. It writes no blanks, and leaves most
of the characters that `json.dumps` escapes as they are; `loads_goObject` says that `json.loads`
reads the map all the same. `forall_mem_goObject` is for what the text may be put into: the only
characters that stand in it are those that stand in the map, the ones that JSON itself writes, and
none of those that are escaped.
-/

namespace ControlPlane.JsonText

variable {Obj : Type}

/-- The characters that are escaped as `\uXXXX`. -/
def goUnsafe (c : CodePoint) : Bool :=
  c < 32 || c ∈ ([0x3c, 0x3e, 0x26, 0x2028, 0x2029] : List CodePoint)

/-- A character in quotes. -/
def goEscape (c : CodePoint) : PyStr :=
  match ESCAPES.lookup c with
  | some letter => [92, letter]
  | none => if goUnsafe c then unitText c.val else [c]

/-- A text in quotes. -/
def goQuoted (s : String) : PyStr := 34 :: ((u s).flatMap goEscape ++ [34])

/-- A key with its value. -/
def goMember (m : String × String) : PyStr := goQuoted m.1 ++ 58 :: goQuoted m.2

/-- The members, with commas in between. -/
def goMembers : List (String × String) → PyStr
  | [] => []
  | m :: rest => goMember m ++ rest.flatMap fun m => 44 :: goMember m

/-- The text of a map, in the order of its keys. -/
def goObject (members : List (String × String)) : PyStr := 123 :: (goMembers members ++ [125])

/-! ## Texts -/

theorem goUnsafe_lt {c : CodePoint} (h : goUnsafe c = true) : c.val < 0x10000 := by
  simp only [goUnsafe, Bool.or_eq_true, decide_eq_true_eq, List.mem_cons, List.not_mem_nil,
    or_false] at h
  rcases h with h | rfl | rfl | rfl | rfl | rfl
  · have hval : c.val < 32 := h
    omega
  all_goals decide

/-- A character is read back, whether it is escaped or not. -/
theorem scanUnits_goEscape (c : CodePoint) (s : PyStr) :
    ∃ b, scanUnits (goEscape c ++ s) = (scanUnits s).map fun r => ((b, c) :: r.1, r.2) := by
  unfold goEscape
  cases hc : ESCAPES.lookup c with
  | some letter =>
    obtain ⟨hback, hne⟩ := lookup_unescapes hc
    exact ⟨false, scanUnits_letter hback hne s⟩
  | none =>
    have h34 : c ≠ 34 := fun e => by simp [e, ESCAPES] at hc
    have h92 : c ≠ 92 := fun e => by simp [e, ESCAPES] at hc
    cases hescape : goUnsafe c with
    | true =>
      refine ⟨true, ?_⟩
      rw [if_pos rfl, scanUnits_unitText (goUnsafe_lt hescape), Fin.ofNat_val_eq_self]
    | false =>
      have h32 : 32 ≤ c := by
        refine not_lt.mp fun hlt => ?_
        simp [goUnsafe, hlt] at hescape
      refine ⟨false, ?_⟩
      rw [if_neg Bool.false_ne_true]
      exact scanUnits_raw h34 h92 h32 s

/-- The units of a text without surrogates are its characters. -/
theorem joinUnits_of_forall {units : List (Bool × CodePoint)}
    (h : ∀ x ∈ units, isHigh x.2 = false) : joinUnits units = units.map Prod.snd := by
  fun_induction joinUnits units with
  | case1 => rfl
  | case2 x => rfl
  | case3 x y rest hpair ih =>
    have hx := h x List.mem_cons_self
    simp [hx] at hpair
  | case4 x y rest hpair ih =>
    rw [ih fun z hz => h z (List.mem_cons_of_mem x hz)]
    rfl

theorem scanUnits_goQuoted (s tail : PyStr) : ∃ units, units.map Prod.snd = s ∧
    scanUnits (s.flatMap goEscape ++ 34 :: tail) = some (units, tail) := by
  induction s with
  | nil => exact ⟨[], rfl, scanUnits_quote tail⟩
  | cons c s ih =>
    obtain ⟨units, hunits, hscan⟩ := ih
    obtain ⟨b, hb⟩ := scanUnits_goEscape c (s.flatMap goEscape ++ 34 :: tail)
    refine ⟨(b, c) :: units, by rw [List.map_cons, hunits], ?_⟩
    rw [List.flatMap_cons, List.append_assoc, hb, hscan]
    rfl

/-- There are no surrogates in a text of Lean. -/
theorem isHigh_of_mem_u {s : String} {c : CodePoint} (hc : c ∈ u s) : isHigh c = false := by
  obtain ⟨x, -, rfl⟩ := List.mem_map.mp hc
  have hx := x.valid
  change x.toNat < 0xd800 ∨ 0xdfff < x.toNat ∧ x.toNat < 0x110000 at hx
  have hval : (ofChar x).val = x.toNat := rfl
  rw [← Bool.not_eq_true, isHigh_iff, hval]
  omega

theorem scanString_goQuoted (s : String) (tail : PyStr) :
    scanString ((u s).flatMap goEscape ++ 34 :: tail) = some (u s, tail) := by
  obtain ⟨units, hunits, hscan⟩ := scanUnits_goQuoted (u s) tail
  have hhigh : ∀ x ∈ units, isHigh x.2 = false := by
    intro x hx
    refine isHigh_of_mem_u (s := s) ?_
    rw [← hunits]
    exact List.mem_map_of_mem hx
  unfold scanString
  rw [hscan]
  simp [joinUnits_of_forall hhigh, hunits]

/-! ## Maps -/

/-- The items that a map is read as. -/
def goItems (members : List (String × String)) : List (PyStr × PyVal Obj) :=
  members.map fun m => (u m.1, .str (u m.2))

namespace Interp

variable (J : Interp Obj)

theorem scanValue_goQuoted (s : String) (n d : ℕ) (tail : PyStr) :
    J.scanValue (n + 1) d (goQuoted s ++ tail) = .ok (.str (u s), tail) := by
  rw [goQuoted, List.cons_append, List.append_assoc, List.singleton_append,
    J.scanValue_scalar (by simp) (by simp), scanScalar, if_pos rfl, scanString_goQuoted]

/-- The members of a map are read. -/
theorem scanMembers_go {m : String × String} {rest : List (String × String)} {d n : ℕ}
    (hn : (m :: rest).length < n) (tail : PyStr) :
    J.scanMembers n d (goMembers (m :: rest) ++ 125 :: tail) =
      .ok (goItems (m :: rest), tail) := by
  -- A member, with what follows it.
  have hmember (m : String × String) (s : PyStr) : goMember m ++ s =
      34 :: ((u m.1).flatMap goEscape ++ 34 :: 58 :: (goQuoted m.2 ++ s)) := by
    simp [goMember, goQuoted]
  have hskip (m : String × String) (s : PyStr) :
      skipBlanks (goQuoted m.2 ++ s) = goQuoted m.2 ++ s :=
    skipBlanks_cons (by decide) _
  induction rest generalizing m n with
  | nil =>
    obtain ⟨n, rfl⟩ : ∃ k, n = k + 2 := ⟨n - 2, by simp at hn; omega⟩
    have hv := J.scanValue_goQuoted m.2 n d (125 :: tail)
    have hsp := hskip m (125 :: tail)
    rw [goMembers, List.flatMap_nil, List.append_nil, hmember, scanMembers,
      if_pos List.head?_cons, List.tail_cons, scanString_goQuoted]
    simp [bind, Except.bind, pure, Except.pure, skipBlanks_cons (c := 58) (by decide), hsp, hv,
      skipBlanks_cons (c := 125) (by decide), goItems]
  | cons k rest ih =>
    obtain ⟨n, rfl⟩ : ∃ j, n = j + 2 := ⟨n - 2, by simp at hn; omega⟩
    have htext : goMembers (m :: k :: rest) ++ 125 :: tail =
        goMember m ++ 44 :: (goMembers (k :: rest) ++ 125 :: tail) := by
      simp [goMembers]
    have hrest : J.scanMembers (n + 1) d (goMembers (k :: rest) ++ 125 :: tail) =
        .ok (goItems (k :: rest), tail) := by
      refine ih ?_
      simp only [List.length_cons] at hn ⊢
      omega
    have hv := J.scanValue_goQuoted m.2 n d (44 :: (goMembers (k :: rest) ++ 125 :: tail))
    have hsp := hskip m (44 :: (goMembers (k :: rest) ++ 125 :: tail))
    have hsep : skipBlanks (goMembers (k :: rest) ++ 125 :: tail) =
        goMembers (k :: rest) ++ 125 :: tail := by
      rw [goMembers, List.append_assoc, hmember]
      exact skipBlanks_cons (by decide) _
    have hitems : goItems (m :: k :: rest) =
        (u m.1, PyVal.str (u m.2)) :: (goItems (k :: rest) : List (PyStr × PyVal Obj)) := rfl
    rw [htext, hitems]
    generalize goMembers (k :: rest) = t at hv hsp hsep hrest ⊢
    rw [hmember, scanMembers, if_pos List.head?_cons, List.tail_cons, scanString_goQuoted]
    simp [bind, Except.bind, pure, Except.pure, skipBlanks_cons (c := 58) (by decide), hsp, hv,
      skipBlanks_cons (c := 44) (by decide), hsep, hrest]

theorem length_goMembers (members : List (String × String)) :
    members.length ≤ (goMembers members).length := by
  have hmember (m : String × String) : 1 ≤ (goMember m).length := by
    simp [goMember, goQuoted]
  have htail (rest : List (String × String)) :
      rest.length ≤ (rest.flatMap fun m => 44 :: goMember m).length := by
    induction rest with
    | nil => exact le_rfl
    | cons m rest ih =>
      rw [List.flatMap_cons, List.length_append, List.length_cons, List.length_cons]
      omega
  cases members with
  | nil => exact le_rfl
  | cons m rest =>
    have hm := hmember m
    have hrest := htail rest
    rw [goMembers, List.length_append, List.length_cons]
    omega

/-- A map is read as a dict. -/
theorem loads_goObject {members : List (String × String)} (hne : members ≠ [])
    (hdepth : J.loadsDepth ≠ 0) :
    J.loads (goObject members) = .ok (.dict (asDict (goItems members))) := by
  obtain ⟨d, hd⟩ : ∃ d, J.loadsDepth = d + 1 := Nat.exists_eq_succ_of_ne_zero hdepth
  obtain ⟨m, rest, rfl⟩ := List.exists_cons_of_ne_nil hne
  have hlen := length_goMembers (m :: rest)
  have htext : (goObject (m :: rest)).length = (goMembers (m :: rest)).length + 2 := by
    simp [goObject]
  obtain ⟨more, hmore⟩ : ∃ more, goMembers (m :: rest) ++ [125] = 34 :: more := by
    simp [goMembers, goMember, goQuoted]
  have hfuel : (m :: rest).length < 2 * (goObject (m :: rest)).length + 1 := by
    omega
  have hmembers := J.scanMembers_go (d := d) hfuel []
  rw [hmore] at hmembers
  have hvalue : J.scanValue (2 * (goObject (m :: rest)).length + 2) (d + 1)
      (goObject (m :: rest)) = .ok (.dict (asDict (goItems (m :: rest))), []) := by
    generalize 2 * (goObject (m :: rest)).length = n at hmembers ⊢
    rw [goObject, hmore, scanValue.eq_def]
    simp [skipBlanks_cons (c := 34) (by decide), hmembers, bind, Except.bind, pure, Except.pure]
  have hskip : skipBlanks (goObject (m :: rest)) = goObject (m :: rest) :=
    skipBlanks_cons (by decide) _
  unfold loads
  rw [if_neg (by simp [goObject]), hskip, hd, hvalue]
  simp [bind, Except.bind, pure, Except.pure, skipBlanks]

/-- When the text of a map is read at all, then as a dict. -/
theorem dict_of_loads_goObject {members : List (String × String)} (hne : members ≠ [])
    {v : PyVal Obj} (h : J.loads (goObject members) = .ok v) :
    v = .dict (asDict (goItems members)) := by
  by_cases hdepth : J.loadsDepth = 0
  · have hskip : skipBlanks (goObject members) = goObject members := skipBlanks_cons (by decide) _
    unfold loads at h
    rw [if_neg (by simp [goObject]), hskip, hdepth] at h
    generalize 2 * (goObject members).length = n at h
    rw [goObject, scanValue.eq_def] at h
    simp [bind, Except.bind] at h
  · have hdict := J.loads_goObject hne hdepth
    exact Except.ok.inj (h.symm.trans hdict)

end Interp

/-- A key that is not in the map is not in the dict. -/
theorem getItem_goItems {members : List (String × String)} {key : String}
    (h : key ∉ members.map Prod.fst) :
    getItem (u key) (asDict (goItems members : List (PyStr × PyVal Obj))) = none := by
  unfold getItem
  rw [Option.map_eq_none_iff, List.find?_eq_none]
  intro i hi hkey
  obtain ⟨j, hj, hij⟩ := key_of_mem_asDict hi
  obtain ⟨m, hm, rfl⟩ := List.mem_map.mp hj
  rw [hij] at hkey
  have hname : u m.1 = u key := by simpa [keyStr] using hkey
  exact h (List.mem_map.mpr ⟨m, hm, u_injective hname⟩)

/-! ## The characters of a text -/

/-- What holds of the characters that JSON writes, and of the characters of a text that are not
escaped, holds of all of the text in quotes. -/
theorem forall_mem_goQuoted {p : CodePoint → Prop} (hascii : ∀ c, 32 ≤ c.val ∧ c.val ≤ 126 → p c)
    {s : String} (hs : ∀ c ∈ u s, goUnsafe c = false → p c) : ∀ c ∈ goQuoted s, p c := by
  have hescape (c : CodePoint) (hc : c ∈ u s) : ∀ d ∈ goEscape c, p d := by
    intro d hd
    unfold goEscape at hd
    cases hlookup : ESCAPES.lookup c with
    | some letter =>
      rw [hlookup] at hd
      have hprint := printable_escape c
      rw [escape, hlookup] at hprint
      exact hascii d (hprint d hd)
    | none =>
      rw [hlookup] at hd
      cases hsafe : goUnsafe c with
      | true =>
        rw [hsafe] at hd
        exact hascii d (printable_unitText _ d hd)
      | false =>
        rw [hsafe] at hd
        rw [List.mem_singleton.mp hd]
        exact hs c hc hsafe
  intro c hc
  rcases List.mem_cons.mp hc with rfl | hc
  · exact hascii _ (by decide)
  · rcases List.mem_append.mp hc with hc | hc
    · obtain ⟨d, hd, hcd⟩ := List.mem_flatMap.mp hc
      exact hescape d hd c hcd
    · rw [List.mem_singleton.mp hc]
      exact hascii _ (by decide)

/-- The same for the text of a map. -/
theorem forall_mem_goObject {p : CodePoint → Prop} (hascii : ∀ c, 32 ≤ c.val ∧ c.val ≤ 126 → p c)
    {members : List (String × String)}
    (hmembers : ∀ m ∈ members, ∀ c ∈ u m.1 ++ u m.2, goUnsafe c = false → p c) :
    ∀ c ∈ goObject members, p c := by
  have hmember (m : String × String) (hm : m ∈ members) : ∀ c ∈ goMember m, p c := by
    intro c hc
    rcases List.mem_append.mp hc with hc | hc
    · exact forall_mem_goQuoted hascii
        (fun d hd => hmembers m hm d (List.mem_append_left _ hd)) c hc
    · rcases List.mem_cons.mp hc with rfl | hc
      · exact hascii _ (by decide)
      · exact forall_mem_goQuoted hascii
          (fun d hd => hmembers m hm d (List.mem_append_right _ hd)) c hc
  have hall : ∀ c ∈ goMembers members, p c := by
    intro c hc
    cases members with
    | nil => exact absurd hc List.not_mem_nil
    | cons m rest =>
      rcases List.mem_append.mp hc with hc | hc
      · exact hmember m List.mem_cons_self c hc
      · obtain ⟨k, hk, hck⟩ := List.mem_flatMap.mp hc
        rcases List.mem_cons.mp hck with rfl | hck
        · exact hascii _ (by decide)
        · exact hmember k (List.mem_cons_of_mem m hk) c hck
  intro c hc
  rcases List.mem_cons.mp hc with rfl | hc
  · exact hascii _ (by decide)
  · rcases List.mem_append.mp hc with hc | hc
    · exact hall c hc
    · rw [List.mem_singleton.mp hc]
      exact hascii _ (by decide)

end ControlPlane.JsonText
