import ControlPlane.Secure.Durable
import Mathlib.Data.List.Chain

/-!
# The trail of entries

What the file of the tamper logger gives back of the calls behind it. For calls whose arguments are
values of JSON it gives back the same entries in order, each verifies, and none verifies with a
field changed to another value, exactly when every call stores values that the `json` module writes
and reads as they are (`faithful_iff`): integers that are not too long, nesting that is not too
deep, and no high surrogate with a low one behind it. Otherwise the entry is not in the file, the
reading ends at its line, or another text is read.

The digest is taken to be injective, as it is for a fixed key up to collisions.
-/

namespace ControlPlane.Secure

open JsonText

variable {Obj : Type}

/-! ## The interpreter -/

/-- A text of ASCII characters. -/
def Ascii (s : PyStr) : Prop := ∀ c ∈ s, c.val < 128

/-- A text of hexadecimal digits, as `hexdigest` gives. -/
def Hex (s : PyStr) : Prop := ∀ c ∈ s, (hexVal c).isSome = true

/-- What is known of the functions of the interpreter: the digest is injective and in hexadecimal,
the texts of the exceptions are ASCII, and `repr` escapes surrogates, which are not printable. -/
structure Lawful (R : Runtime Obj) : Prop where
  hmac_injective : Function.Injective R.hmac
  hmac_hex : ∀ s, Hex (R.hmac s)
  sha256_hex : ∀ s, Hex (R.sha256 s)
  digitsError_ascii : Ascii R.digitsError
  depthError_ascii : Ascii R.depthError
  encodeError_ascii : ∀ s, Ascii (R.encodeError s)
  repr_escaped : ∀ v s, R.repr v = .ok s → ∀ c ∈ s, isHigh c = false

theorem Ascii.append {s t : PyStr} (hs : Ascii s) (ht : Ascii t) : Ascii (s ++ t) := by
  intro c hc
  rcases List.mem_append.mp hc with h | h
  · exact hs c h
  · exact ht c h

theorem ascii_of_printable {s : PyStr} (hs : Printable s) : Ascii s := by
  intro c hc
  have hrange := hs c hc
  omega

theorem ascii_of_hex {s : PyStr} (hs : Hex s) : Ascii s := by
  intro c hc
  have hdigit := hs c hc
  unfold hexVal at hdigit
  split_ifs at hdigit with h1 h2 h3
  all_goals simp at hdigit
  all_goals omega

theorem joined_of_ascii {s : PyStr} (hs : Ascii s) : Joined s := by
  refine joined_of_forall fun c hc => ?_
  have hlt := hs c hc
  rw [← Bool.not_eq_true, isHigh_iff]
  omega

theorem joined_head {s p : PyStr} (hs : Joined s) (hp : p <+: s) : Joined p :=
  List.IsChain.prefix hs hp

/-- An error of the signer is no digest. -/
theorem error_ne_hex {s e : PyStr} (hs : Hex s) : s ≠ u "signature_error:" ++ e := by
  rintro rfl
  have hmem : ofChar 's' ∈ u "signature_error:" ++ e :=
    List.mem_append_left _ (List.mem_map_of_mem (by decide))
  exact absurd (hs _ hmem) (by decide)

/-! ## Values that are read as they were -/

namespace Runtime

variable (R : Runtime Obj)

/-- A value that `json.dumps` writes and `json.loads` reads as it was, at level `k` of an entry. -/
def PlainAt (k : ℕ) (v : PyVal Obj) : Prop :=
  R.Writable v ∧ JoinedVal v ∧ v.Under R.dumpsDepth k ∧ v.Under R.loadsDepth k

/-- The stored values of a call are written and read as they were. -/
def Plain (args : LogArgs Obj) : Prop := R.Stored R.PlainAt args

variable {R}

theorem joinedVal_scalar {v : PyVal Obj} (hchildren : v.children = []) (h : JoinedNode v) :
    JoinedVal v :=
  ⟨_, h, fun _ hw => absurd (hchildren ▸ hw) List.not_mem_nil⟩

theorem PlainAt.scalar {k : ℕ} {v w : PyVal Obj} (h : R.PlainAt k v)
    (hs : ∀ frozen xs, w ≠ .seq frozen xs) (hd : ∀ items, w ≠ .dict items) (hw : R.WritesNode w)
    (hj : JoinedNode w) : R.PlainAt k w := by
  have hchildren : w.children = [] := by
    cases w with
    | seq frozen xs => exact absurd rfl (hs frozen xs)
    | dict items => exact absurd rfl (hd items)
    | _ => rfl
  exact ⟨R.writable_of_scalar hs hd hw, joinedVal_scalar hchildren hj,
    PyVal.under_scalar h.2.2.1.1 hs hd, PyVal.under_scalar h.2.2.2.1 hs hd⟩

/-- The text of a value without pairs has none. -/
theorem joined_strOf (hR : Lawful R) {v : PyVal Obj} {s : PyStr} (hv : JoinedVal v)
    (hw : R.Writable v) (h : R.strOf v = .ok s) : Joined s := by
  cases v with
  | none => exact Except.ok.inj h ▸ joined_u _
  | bool b =>
    cases b with
    | true => exact Except.ok.inj h ▸ joined_u _
    | false => exact Except.ok.inj h ▸ joined_u _
  | int n =>
    obtain ⟨-, rfl⟩ := R.int_eq_ok.mp h
    exact joined_of_ascii (ascii_of_printable (printable_intText n))
  | float x =>
    cases x with
    | nan => exact Except.ok.inj h ▸ joined_u _
    | inf neg =>
      cases neg with
      | true => exact Except.ok.inj h ▸ joined_u _
      | false => exact Except.ok.inj h ▸ joined_u _
    | fin t =>
      exact Except.ok.inj h ▸ joined_of_ascii (ascii_of_printable (printable_floatText t))
  | str t => exact Except.ok.inj h ▸ hv.here
  | seq frozen xs => exact joined_of_forall (hR.repr_escaped _ s h)
  | dict items => exact joined_of_forall (hR.repr_escaped _ s h)
  | other o => exact hw.here.elim

theorem levelled_plainAt (hR : Lawful R) : R.Levelled R.PlainAt Joined where
  room h := h.scalar (by simp) (by simp) trivial trivial
  str h hs := h.scalar (by simp) (by simp) trivial hs
  bool h := h.scalar (by simp) (by simp) trivial trivial
  up h := ⟨h.1, h.2.1, h.2.2.1.up, h.2.2.2.up⟩
  elems h x hx := ⟨R.writable_seq.mp h.1 x hx, h.2.1.inside hx, h.2.2.1.elems x hx,
    h.2.2.2.elems x hx⟩
  items h i hi := ⟨(R.writable_dict.mp h.1 i hi).2, h.2.1.inside (List.mem_map_of_mem hi),
    h.2.2.1.items i hi, h.2.2.2.items i hi⟩
  dict hnames _ hroom h := by
    have hkey {i : PyKey Obj × PyVal Obj} (hi : ∃ n : String, i.1 = .str (u n)) :
        R.WritesKey i.1 := by
      obtain ⟨n, hn⟩ := hi
      rw [hn]
      trivial
    refine ⟨R.writable_dict.mpr fun i hi => ⟨hkey (hnames i hi), (h i hi).1⟩,
      ⟨_, fun i hi s hs => ?_, fun w hw => ?_⟩,
      PyVal.under_dict hroom.2.2.1.1 fun i hi => (h i hi).2.2.1,
      PyVal.under_dict hroom.2.2.2.1 fun i hi => (h i hi).2.2.2⟩
    · obtain ⟨n, hn⟩ := hnames i hi
      obtain rfl := PyKey.str.inj (hn.symm.trans hs)
      exact joined_u n
    · obtain ⟨i, hi, rfl⟩ := List.mem_map.mp hw
      exact (h i hi).2.1
  not_other h := h.1.here
  strOf h hs := h.scalar (by simp) (by simp) trivial (joined_strOf hR h.2.1 h.1 hs)
  part h hp := h.scalar (by simp) (by simp) trivial (joined_head h.2.1.here hp)

/-! ## Entries of values of JSON -/

theorem isJson_of_children {v : PyVal Obj} (hchildren : v.children = []) (h : JsonNode v) :
    IsJson v :=
  ⟨_, h, fun _ hw => absurd (hchildren ▸ hw) List.not_mem_nil⟩

variable (R) in
theorem levelled_isJson : R.Levelled (fun _ => IsJson) fun _ => True where
  room _ := isJson_of_children rfl trivial
  str _ _ := isJson_of_children rfl trivial
  bool _ := isJson_of_children rfl trivial
  up h := h
  elems h _ hx := h.inside hx
  items h _ hi := h.inside (List.mem_map_of_mem hi)
  dict hnames hnd _ h := isJson_dict ⟨fun i hi => ⟨_, (hnames i hi).choose_spec⟩, hnd⟩ h
  not_other h := h.here
  strOf _ _ := isJson_of_children rfl trivial
  part _ _ := isJson_of_children rfl trivial

end Runtime

/-- The arguments of a call are values of JSON. -/
def Native (args : LogArgs Obj) : Prop :=
  ∀ v ∈ [args.eventType, args.action, args.details, args.clientInfo, args.severity,
    args.isTampering, args.transactionId, args.requestData, args.dataBefore, args.dataAfter,
    args.userIdentity], IsJson v

/-- The keys of an entry, in their order. -/
def ENTRY_KEYS : List PyStr :=
  ["timestamp", "event_type", "action", "severity", "details", "is_tampering", "transaction_id",
    "user_identity", "request_hash", "data_before_hash", "data_after_hash", "client_info",
    "integrity_signature"].map u

namespace Runtime

variable {R : Runtime Obj}

theorem keys_of_entry {stamp : Stamp} {args : LogArgs Obj} {e : List (PyKey Obj × PyVal Obj)}
    (h : R.entry stamp args = .ok e) : e.map Prod.fst = ENTRY_KEYS.map .str := by
  obtain ⟨fs, hfs, rfl⟩ := entry_eq_ok h
  obtain ⟨_, _, _, _, _, _, -, -, -, -, -, -, rfl⟩ := fields_eq_ok hfs
  rfl

theorem nodup_entry {stamp : Stamp} {args : LogArgs Obj} {e : List (PyKey Obj × PyVal Obj)}
    (h : R.entry stamp args = .ok e) : (e.map Prod.fst).Nodup := by
  have hkeys : ENTRY_KEYS.Nodup := by decide
  rw [keys_of_entry h]
  exact hkeys.map fun _ _ h => PyKey.str.inj h

theorem names_of_entry {stamp : Stamp} {args : LogArgs Obj} {e : List (PyKey Obj × PyVal Obj)}
    (h : R.entry stamp args = .ok e) : ∀ i ∈ e, ∃ name : String, i.1 = .str (u name) := by
  intro i hi
  have hmem : i.1 ∈ e.map Prod.fst := List.mem_map_of_mem hi
  rw [keys_of_entry h, ENTRY_KEYS, List.map_map] at hmem
  obtain ⟨name, -, hname⟩ := List.mem_map.mp hmem
  exact ⟨name, hname.symm⟩

/-- Values of JSON are stored of arguments that are. -/
theorem stored_of_native {args : LogArgs Obj} (h : Native args) :
    R.Stored (fun _ => IsJson) args := by
  unfold Native at h
  simp only [List.forall_mem_cons, List.not_mem_nil, false_imp_iff, implies_true, and_true] at h
  obtain ⟨hevent, haction, hdetails, hinfo, hseverity, htamp, hid, -, -, -, hident⟩ := h
  refine ⟨?_, fun _ => hinfo, fun key _ _ v hv => ?_⟩
  · simp only [List.forall_mem_cons, List.not_mem_nil, false_imp_iff, implies_true, and_true]
    exact ⟨hevent, haction, hseverity, hdetails, htamp, hid⟩
  · rcases given_eq_ok hv with rfl | ⟨hitem, -⟩
    · exact isJson_of_children rfl trivial
    · exact item_level (k := 0) R.levelled_isJson hident hitem

theorem isJson_entry {stamp : Stamp} {args : LogArgs Obj} (hargs : Native args)
    {e : List (PyKey Obj × PyVal Obj)} (h : R.entry stamp args = .ok e) : IsJson (.dict e) := by
  refine isJson_dict ⟨fun i hi => ⟨_, (names_of_entry h i hi).choose_spec⟩, nodup_entry h⟩ ?_
  obtain ⟨fs, hfs, rfl⟩ := entry_eq_ok h
  have hgood : GoodTexts R (fun _ => True) stamp args := ⟨trivial, trivial, fun _ _ => trivial⟩
  have hvalues := (fields_iff R.levelled_isJson hgood hfs).mpr (stored_of_native hargs)
  intro i hi
  rcases List.mem_append.mp hi with hi | hi
  · exact hvalues i hi
  · rw [List.mem_singleton.mp hi]
    exact isJson_of_children rfl trivial

end Runtime

/-! ## The texts that are made up for an entry -/

namespace Runtime

variable {R : Runtime Obj}

theorem ascii_error_of_dumps (hR : Lawful R) {v : PyVal Obj} (hv : IsJson v) {e : PyStr}
    (h : R.dumps R.sorted v = .error e) : Ascii e := by
  rcases R.error_of_encode_sorted hv h with rfl | rfl
  · exact hR.digitsError_ascii
  · exact hR.depthError_ascii

theorem ascii_u {s : String}
    (h : (s.toList.all fun c => 32 ≤ c.toNat ∧ c.toNat ≤ 126) = true) : Ascii (u s) :=
  ascii_of_printable (printable_u h)

/-- The text of a hash, or of an exception in its place, is ASCII. -/
theorem ascii_computeHash (hR : Lawful R) {data : PyVal Obj} (hdata : IsJson data) :
    Ascii (R.computeHash data) := by
  have hprefix : Ascii (u "hash_error:") := ascii_u (by decide)
  unfold computeHash
  cases hhashed : R.hashed data with
  | error e =>
    have he : R.dumps R.sorted data = .error e := by
      cases data with
      | str s => simp [hashed] at hhashed
      | other o => exact hdata.here.elim
      | _ => exact hhashed
    exact hprefix.append (ascii_error_of_dumps hR hdata he)
  | ok s =>
    change Ascii (if s.any fun c => isHigh c || isLow c then _ else _)
    split_ifs
    · exact hprefix.append (hR.encodeError_ascii s)
    · exact ascii_of_hex (hR.sha256_hex s)

/-- What is signed of an entry. -/
def signed (e : List (PyKey Obj × PyVal Obj)) : PyVal Obj :=
  .dict (e.filter fun i => keyStr i.1 ≠ some (u "integrity_signature"))

theorem isJson_signed {e : List (PyKey Obj × PyVal Obj)} (he : IsJson (.dict e)) :
    IsJson (signed e) := by
  have hsub := List.filter_sublist (l := e)
    (p := fun i => keyStr i.1 ≠ some (u "integrity_signature"))
  refine isJson_dict ⟨fun i hi => he.here.1 i (hsub.mem hi), ?_⟩ fun i hi =>
    he.inside (List.mem_map_of_mem (hsub.mem hi))
  exact he.here.2.sublist (hsub.map Prod.fst)

/-- The signature is not signed. -/
theorem sign_append_signature (e : List (PyKey Obj × PyVal Obj)) (v : PyVal Obj) :
    R.sign (e ++ [field "integrity_signature" v]) = R.sign e := by
  have hkey : ¬ keyStr (field "integrity_signature" v).1 ≠ some (u "integrity_signature") :=
    fun h => h rfl
  unfold sign
  rw [List.filter_append, List.filter_singleton, decide_eq_false hkey, cond_false,
    List.append_nil]

/-- The signature of an entry is a digest, or the text of an exception in its place. -/
theorem sign_cases (hR : Lawful R) {e : List (PyKey Obj × PyVal Obj)} (he : IsJson (.dict e)) :
    (∃ t, R.dumps R.sorted (signed e) = .ok t ∧ R.sign e = R.hmac t) ∨
      ∃ t, R.sign e = u "signature_error:" ++ t ∧ Ascii t := by
  unfold sign
  cases hdumps : R.dumps R.sorted (signed e) with
  | ok t =>
    refine .inl ⟨t, rfl, ?_⟩
    unfold signed at hdumps
    rw [hdumps]
  | error t =>
    refine .inr ⟨t, ?_, ascii_error_of_dumps hR (isJson_signed he) hdumps⟩
    unfold signed at hdumps
    rw [hdumps]

theorem ascii_sign (hR : Lawful R) {e : List (PyKey Obj × PyVal Obj)} (he : IsJson (.dict e)) :
    Ascii (R.sign e) := by
  rcases sign_cases hR he with ⟨t, -, hsign⟩ | ⟨t, hsign, ht⟩
  · rw [hsign]
    exact ascii_of_hex (hR.hmac_hex t)
  · rw [hsign]
    exact Ascii.append (ascii_u (by decide)) ht

/-- An entry is written and read as it was exactly when the stored values of its call are. -/
theorem plainAt_entry_iff (hR : Lawful R) {stamp : Stamp} {args : LogArgs Obj}
    (hargs : Native args) {e : List (PyKey Obj × PyVal Obj)} (h : R.entry stamp args = .ok e) :
    R.PlainAt 0 (.dict e) ↔ R.Plain args := by
  have hlevels := levelled_plainAt hR
  obtain ⟨fs, hfs, rfl⟩ := entry_eq_ok h
  have hgood : GoodTexts R Joined stamp args := by
    refine ⟨joined_of_ascii stamp.timestamp_ascii, joined_of_ascii stamp.uuid_ascii, ?_⟩
    unfold Native at hargs
    simp only [List.forall_mem_cons, List.not_mem_nil, false_imp_iff, implies_true, and_true]
      at hargs ⊢
    obtain ⟨-, -, -, -, -, -, -, hrequest, hbefore, hafter, -⟩ := hargs
    exact ⟨joined_of_ascii (ascii_computeHash hR hrequest),
      joined_of_ascii (ascii_computeHash hR hbefore), joined_of_ascii (ascii_computeHash hR hafter)⟩
  have hjson := isJson_entry hargs h
  have hnames := names_of_entry h
  unfold Plain
  rw [← fields_iff hlevels hgood hfs]
  constructor
  · intro hplain i hi
    exact hlevels.items hplain i (List.mem_append_left _ hi)
  · intro hall
    have hroom : R.PlainAt 1 .none := by
      obtain ⟨_, _, _, _, _, _, -, -, -, -, -, -, rfl⟩ := fields_eq_ok hfs
      exact hlevels.room (hall _ List.mem_cons_self)
    refine hlevels.dict hnames (nodup_entry h) hroom fun i hi => ?_
    rcases List.mem_append.mp hi with hi | hi
    · exact hall i hi
    · rw [List.mem_singleton.mp hi]
      refine hlevels.str hroom (joined_of_ascii ?_)
      have hsign : R.sign (fs ++ [field "integrity_signature" (.str (R.sign fs))]) = R.sign fs :=
        sign_append_signature _ _
      rw [← hsign]
      exact ascii_sign hR hjson

end Runtime

/-! ## The lines of a run -/

namespace Runtime

variable (R : Runtime Obj)

/-- Calls that return, one after the other, with their entries. -/
inductive Runs : TamperLogger Obj → List (Stamp × LogArgs Obj) →
    List (List (PyKey Obj × PyVal Obj)) → TamperLogger Obj → Prop
  | nil (s : TamperLogger Obj) : Runs s [] [] s
  | cons {stamp : Stamp} {args : LogArgs Obj} {s s' t : TamperLogger Obj} {id : PyVal Obj}
      {e : List (PyKey Obj × PyVal Obj)} {calls : List (Stamp × LogArgs Obj)}
      {entries : List (List (PyKey Obj × PyVal Obj))} (hlog : R.log stamp args s = (s', .ok id))
      (hentry : R.entry stamp args = .ok e) (hrest : Runs s' calls entries t) :
      Runs s ((stamp, args) :: calls) (e :: entries) t

/-- The line of an entry, when it is written. -/
def lineOf (e : List (PyKey Obj × PyVal Obj)) : Option PyStr :=
  (R.dumps R.plain (.dict e)).toOption

variable {R}

theorem lineOf_eq_some {e : List (PyKey Obj × PyVal Obj)} {t : PyStr} :
    R.lineOf e = some t ↔
      (R.Writable (.dict e) ∧ (PyVal.dict e).NestedIn R.dumpsDepth) ∧
        t = Interp.print (.dict e) := by
  rw [← R.encode_plain_eq_ok, lineOf, Interp.dumps]
  cases R.encode R.plain (.dict e) R.dumpsDepth with
  | ok t' => simp [Except.toOption]
  | error e' => simp [Except.toOption]

/-- Whole lines stay whole, and there is one more when the entry is written. -/
theorem lines_of_append {e : List (PyKey Obj × PyVal Obj)} {s : TamperLogger Obj}
    (hs : WholeLines s.file) :
    WholeLines (R.append e s).file ∧
      fileLines (R.append e s).file = fileLines s.file ++ (R.lineOf e).toList := by
  change WholeLines (R.writeToFile e s.file) ∧ fileLines (R.writeToFile e s.file) = _
  unfold writeToFile lineOf
  cases hdumps : R.dumps R.plain (.dict e) with
  | error e' => exact ⟨hs, by simp [Except.toOption]⟩
  | ok t =>
    obtain ⟨-, rfl⟩ := R.encode_plain_eq_ok.mp hdumps
    refine ⟨fun c hc => ?_, fileLines_append line_of_print (print_dict_ne_nil e) hs⟩
    rw [List.getLast?_concat, Option.mem_some_iff] at hc
    exact .inl hc.symm

/-- The file of a run has the lines of the entries that are written. -/
theorem lines_of_runs {s t : TamperLogger Obj} {calls : List (Stamp × LogArgs Obj)}
    {entries : List (List (PyKey Obj × PyVal Obj))} (h : R.Runs s calls entries t)
    (hs : WholeLines s.file) :
    fileLines t.file = fileLines s.file ++ entries.filterMap R.lineOf := by
  induction h with
  | nil s => simp
  | @cons stamp args s s' t id e calls entries hlog hentry hrest ih =>
    obtain ⟨e', hentry', rfl⟩ := log_eq_ok hlog
    obtain rfl := Except.ok.inj (hentry.symm.trans hentry')
    obtain ⟨hwhole, hlines⟩ := lines_of_append (R := R) (e := e) hs
    rw [ih hwhole, hlines, List.append_assoc, List.filterMap_cons]
    cases R.lineOf e with
    | none => simp
    | some line => simp

/-- Each entry of a run is that of its call. -/
theorem forall₂_of_runs {s t : TamperLogger Obj} {calls : List (Stamp × LogArgs Obj)}
    {entries : List (List (PyKey Obj × PyVal Obj))} (h : R.Runs s calls entries t) :
    List.Forall₂ (fun c e => R.entry c.1 c.2 = .ok e) calls entries := by
  induction h with
  | nil s => exact .nil
  | cons hlog hentry hrest ih => exact .cons hentry ih

theorem exists_of_mem_left {α β : Type} {P : α → β → Prop} {l : List α} {m : List β}
    (h : List.Forall₂ P l m) {a : α} (ha : a ∈ l) : ∃ b ∈ m, P a b := by
  obtain ⟨i, hi, rfl⟩ := List.mem_iff_getElem.mp ha
  have hi' : i < m.length := h.length_eq ▸ hi
  exact ⟨m[i], List.getElem_mem hi', h.get hi hi'⟩

theorem exists_of_mem_right {α β : Type} {P : α → β → Prop} {l : List α} {m : List β}
    (h : List.Forall₂ P l m) {b : β} (hb : b ∈ m) : ∃ a ∈ l, P a b :=
  exists_of_mem_left h.flip hb

/-! ## Reading the lines -/

/-- At most the lines that are not blank are read. -/
theorem length_readLines_le (lines : List PyStr) :
    (R.readLines lines).length ≤ (lines.filter fun line => strip line ≠ []).length := by
  induction lines with
  | nil => exact le_rfl
  | cons line rest ih =>
    rw [readLines, List.filter_cons]
    split_ifs with h1 h2 h2
    · simp [h1] at h2
    · exact ih
    · rw [List.length_cons]
      split
      · rw [List.length_cons]
        omega
      · omega
      · exact Nat.zero_le _
    · simp [h1] at h2

/-- As many values as lines that are not blank are read only when each of these is. -/
theorem loads_of_length_readLines {lines : List PyStr}
    (h : (lines.filter fun line => strip line ≠ []).length ≤ (R.readLines lines).length) :
    ∀ line ∈ lines, strip line ≠ [] → ∃ v, R.loads (strip line) = .ok v := by
  induction lines with
  | nil => exact fun line hline => absurd hline List.not_mem_nil
  | cons line rest ih =>
    have hle := length_readLines_le (R := R) rest
    rw [readLines, List.filter_cons] at h
    rw [List.forall_mem_cons]
    by_cases hblank : strip line = []
    · rw [if_pos hblank, if_neg (by simp [hblank])] at h
      exact ⟨fun hne => absurd hblank hne, ih h⟩
    · rw [if_neg hblank, if_pos (by simp [hblank]), List.length_cons] at h
      split at h
      · next v hv =>
        rw [List.length_cons] at h
        exact ⟨fun _ => ⟨v, hv⟩, ih (by omega)⟩
      · omega
      · rw [List.length_nil] at h
        omega

/-- When each line that is not blank is read, these are the values. -/
theorem forall₂_readLines {lines : List PyStr}
    (h : ∀ line ∈ lines, strip line ≠ [] → ∃ v, R.loads (strip line) = .ok v) :
    List.Forall₂ (fun line v => R.loads (strip line) = .ok v)
      (lines.filter fun line => strip line ≠ []) (R.readLines lines) := by
  induction lines with
  | nil => exact .nil
  | cons line rest ih =>
    obtain ⟨hline, hrest⟩ := List.forall_mem_cons.mp h
    rw [readLines, List.filter_cons]
    by_cases hblank : strip line = []
    · rw [if_pos hblank, if_neg (by simp [hblank])]
      exact ih hrest
    · obtain ⟨v, hv⟩ := hline hblank
      rw [if_neg hblank, if_pos (by simp [hblank]), hv]
      exact .cons hv (ih hrest)

/-- There is nothing to strip of the text of a dict. -/
theorem strip_print_dict (e : List (PyKey Obj × PyVal Obj)) :
    strip (Interp.print (.dict e)) = Interp.print (.dict e) := by
  obtain ⟨t, ht⟩ : ∃ t, Interp.print (.dict e) = 123 :: (t ++ [125]) := by
    rw [Interp.print, dictText]
    exact ⟨_, rfl⟩
  have hopen : isSpace 123 = false := by decide
  have hclose : isSpace 125 = false := by decide
  rw [ht, strip, List.dropWhile_cons_of_neg (by simp [hopen]), ← List.cons_append,
    List.rdropWhile_concat_neg _ _ _ (by simp [hclose])]

/-- The lines of entries give back the entries exactly when each is written and read as it was. -/
theorem readLines_eq_iff {entries : List (List (PyKey Obj × PyVal Obj))}
    (hjson : ∀ e ∈ entries, IsJson (.dict e)) :
    R.readLines (entries.filterMap R.lineOf) = entries.map .dict ↔
      ∀ e ∈ entries, R.PlainAt 0 (.dict e) := by
  constructor
  · intro hread
    -- No entry is without a line, for there are as many values as entries.
    have hle := length_readLines_le (R := R) (entries.filterMap R.lineOf)
    have hle' := List.length_filter_le (fun line => strip line ≠ []) (entries.filterMap R.lineOf)
    have hle'' := List.length_filterMap_le R.lineOf entries
    rw [hread, List.length_map] at hle
    have hsome := List.filterMap_length_eq_length.mp (le_antisymm hle'' (hle.trans hle'))
    have hline : ∀ e ∈ entries, (R.Writable (.dict e) ∧ (PyVal.dict e).NestedIn R.dumpsDepth) ∧
        R.lineOf e = some (Interp.print (.dict e)) := by
      intro e he
      obtain ⟨t, ht⟩ := Option.isSome_iff_exists.mp (hsome e he)
      obtain ⟨hwrites, rfl⟩ := lineOf_eq_some.mp ht
      exact ⟨hwrites, ht⟩
    have hlines : entries.filterMap R.lineOf = entries.map fun e => Interp.print (.dict e) := by
      rw [← List.filterMap_eq_map]
      exact List.filterMap_congr fun e he => (hline e he).2
    have hlength : ((entries.filterMap R.lineOf).filter fun line => strip line ≠ []).length ≤
        (R.readLines (entries.filterMap R.lineOf)).length := by
      rw [hread, List.length_map]
      exact hle'.trans hle''
    have hall := loads_of_length_readLines hlength
    have hnonBlank : (entries.filterMap R.lineOf).filter (fun line => strip line ≠ []) =
        entries.map fun e => Interp.print (.dict e) := by
      rw [hlines, List.filter_eq_self, List.forall_mem_map]
      intro e _
      rw [strip_print_dict]
      exact decide_eq_true (print_dict_ne_nil e)
    have hloads := forall₂_readLines hall
    rw [hread, hnonBlank, List.forall₂_map_left_iff, List.forall₂_map_right_iff,
      List.forall₂_same] at hloads
    intro e he
    have hback := hloads e he
    rw [strip_print_dict] at hback
    have hdepth := (R.isJson_of_loads hback).2
    obtain ⟨hwritable, hnested⟩ := (hline e he).1
    rw [R.loads_print hwritable hdepth, Except.ok.injEq, readBack_eq_self_iff (hjson e he)] at hback
    exact ⟨hwritable, hback, ⟨Nat.zero_le _, hnested⟩, ⟨Nat.zero_le _, hdepth⟩⟩
  · intro hplain
    induction entries with
    | nil => rfl
    | cons e rest ih =>
      obtain ⟨hwritable, hjoined, ⟨-, hnested⟩, ⟨-, hdepth⟩⟩ := hplain e List.mem_cons_self
      have hline := lineOf_eq_some.mpr ⟨⟨hwritable, hnested⟩, rfl⟩
      have hloads := R.loads_print hwritable hdepth
      rw [readBack_eq_self (hjson e List.mem_cons_self) hjoined] at hloads
      rw [List.filterMap_cons_some hline, readLines, strip_print_dict,
        if_neg (print_dict_ne_nil e), hloads, List.map_cons]
      change _ :: R.readLines _ = _
      rw [ih (fun e he => hjson e (List.mem_cons_of_mem _ he))
        fun e he => hplain e (List.mem_cons_of_mem _ he)]

/-! ## Verifying entries -/

/-- A stored text is compared when both are ASCII. -/
theorem compareDigest_str {s t : PyStr} (hs : Ascii s) (ht : Ascii t) :
    compareDigest (.str s : PyVal Obj) t = .ok (decide (s = t)) := by
  have hall : ((s ++ t).all fun c => c.val < 128) = true := by
    rw [List.all_eq_true]
    intro c hc
    exact decide_eq_true (hs.append ht c hc)
  unfold compareDigest
  simp only
  rw [if_pos hall]

/-- The signature of an entry, and what is signed of it. -/
theorem signature_of_entry {stamp : Stamp} {args : LogArgs Obj}
    {e : List (PyKey Obj × PyVal Obj)} (h : R.entry stamp args = .ok e) :
    getItem (u "integrity_signature") e = some (.str (R.sign e)) := by
  obtain ⟨fs, hfs, he⟩ := entry_eq_ok h
  rw [getItem_eq_some (nodup_entry h), he, sign_append_signature]
  exact List.mem_append_right _ (List.mem_singleton_self _)

theorem verify_entry (hR : Lawful R) {stamp : Stamp} {args : LogArgs Obj} (hargs : Native args)
    {e : List (PyKey Obj × PyVal Obj)} (h : R.entry stamp args = .ok e) :
    R.verifyLogIntegrity e = .ok true := by
  have hascii := ascii_sign hR (isJson_entry hargs h)
  unfold verifyLogIntegrity
  rw [signature_of_entry h]
  simp only
  rw [compareDigest_str hascii hascii, decide_eq_true rfl]

theorem isJson_setItem {items : List (PyKey Obj × PyVal Obj)} (hitems : IsJson (.dict items))
    {key : PyStr} {v : PyVal Obj} (hv : IsJson v) : IsJson (.dict (setItem key v items)) := by
  refine isJson_dict (jsonNode_setItem v hitems.here) fun i hi => ?_
  rcases mem_setItem hi with hi | ⟨rfl, -⟩
  · exact hitems.inside (List.mem_map_of_mem hi)
  · exact hv

/-- A text in the place of a value brings no pairs in. -/
theorem joinedVal_setItem {items : List (PyKey Obj × PyVal Obj)} (hitems : JoinedVal (.dict items))
    {key : PyStr} (hkey : Joined key) {v : PyVal Obj} (hv : JoinedVal v) :
    JoinedVal (.dict (setItem key v items)) := by
  refine ⟨_, fun i hi s hs => ?_, fun w hw => ?_⟩
  · rcases mem_setItem hi with hi | ⟨-, hi | hi⟩
    · exact hitems.here i hi s hs
    · obtain rfl := PyKey.str.inj (hi.symm.trans hs)
      exact hkey
    · obtain ⟨j, hj, hji⟩ := List.mem_map.mp hi
      exact hitems.here j hj s (hji.trans hs)
  · obtain ⟨i, hi, rfl⟩ := List.mem_map.mp hw
    rcases mem_setItem hi with hi | ⟨rfl, -⟩
    · exact hitems.inside (List.mem_map_of_mem hi)
    · exact hv

/-- Fewer items are no harder to write. -/
theorem dumps_signed {e : List (PyKey Obj × PyVal Obj)} (hjson : IsJson (.dict e))
    (hwritable : R.Writable (.dict e)) (hnested : (PyVal.dict e).NestedIn R.dumpsDepth) :
    R.dumps R.sorted (signed e) = .ok (Interp.print (sortKeys (signed e))) := by
  have hsub : ∀ i ∈ e.filter (fun i => keyStr i.1 ≠ some (u "integrity_signature")), i ∈ e :=
    fun i hi => List.mem_of_mem_filter hi
  refine (R.encode_sorted_eq_ok (isJson_signed hjson)).mpr ⟨⟨?_, ?_⟩, rfl⟩
  · exact R.writable_dict.mpr fun i hi => R.writable_dict.mp hwritable i (hsub i hi)
  · cases hdepth : R.dumpsDepth with
    | zero =>
      rw [hdepth] at hnested
      exact absurd hnested (PyVal.not_nestedIn_zero_dict e)
    | succ d =>
      rw [hdepth, PyVal.nestedIn_dict] at hnested
      exact PyVal.nestedIn_dict.mpr fun i hi => hnested i (hsub i hi)

theorem sign_of_dumps {e : List (PyKey Obj × PyVal Obj)} {t : PyStr}
    (h : R.dumps R.sorted (signed e) = .ok t) : R.sign e = R.hmac t := by
  unfold signed at h
  rw [sign, h]

theorem joinedVal_signed {e : List (PyKey Obj × PyVal Obj)} (h : JoinedVal (.dict e)) :
    JoinedVal (signed e) := by
  refine ⟨_, fun i hi => h.here i (List.mem_of_mem_filter hi), fun w hw => ?_⟩
  obtain ⟨i, hi, rfl⟩ := List.mem_map.mp hw
  exact h.inside (List.mem_map_of_mem (List.mem_of_mem_filter hi))

/-- The fields that are signed are there as they were. -/
theorem getItem_signed {e : List (PyKey Obj × PyVal Obj)} (hnd : (e.map Prod.fst).Nodup)
    {key : PyStr} (hkey : key ≠ u "integrity_signature") {v : PyVal Obj}
    (h : getItem key e = some v) :
    getItem key (e.filter fun i => keyStr i.1 ≠ some (u "integrity_signature")) = some v := by
  have hmem := (getItem_eq_some hnd).mp h
  refine (getItem_eq_some (hnd.sublist (List.filter_sublist.map Prod.fst))).mpr ?_
  rw [List.mem_filter]
  refine ⟨hmem, decide_eq_true ?_⟩
  exact fun h => hkey (Option.some.inj h)

/-- An entry whose signature is a digest does not verify with another value in a field. -/
theorem verify_setItem (hR : Lawful R) {stamp : Stamp} {args : LogArgs Obj}
    (hargs : Native args) {e : List (PyKey Obj × PyVal Obj)} (h : R.entry stamp args = .ok e)
    (hplain : R.PlainAt 0 (.dict e)) {key : PyStr} (hkey : key ≠ u "integrity_signature")
    {v v' : PyVal Obj} (hget : getItem key e = some v) (hv' : IsJson v') (hjoined : JoinedVal v')
    (hne : sortKeys v' ≠ sortKeys v) : R.verifyLogIntegrity (setItem key v' e) = .ok false := by
  have hjson := isJson_entry hargs h
  have hjson' : IsJson (.dict (setItem key v' e)) := isJson_setItem hjson hv'
  have hstored : getItem (u "integrity_signature") (setItem key v' e) = some (.str (R.sign e)) := by
    rw [getItem_setItem_of_ne hkey.symm, signature_of_entry h]
  obtain ⟨hwritable, hje, ⟨-, hnested⟩, -⟩ := hplain
  have hdumps := dumps_signed hjson hwritable hnested
  have hsign := sign_of_dumps hdumps
  have hdiffer : R.sign e ≠ R.sign (setItem key v' e) := by
    rw [hsign]
    rcases sign_cases hR hjson' with ⟨t, ht, hsign'⟩ | ⟨t, hsign', -⟩
    · rw [hsign']
      intro heq
      obtain rfl := hR.hmac_injective heq
      have hjoined' : JoinedVal (.dict (setItem key v' e)) := by
        obtain ⟨i, hi, rfl⟩ := Option.map_eq_some_iff.mp hget
        have hikey := List.find?_some hi
        rw [decide_eq_true_eq, keyStr_eq_some] at hikey
        exact joinedVal_setItem hje (hje.here i (List.mem_of_find?_eq_some hi) key hikey) hjoined
      have hsorted := R.sortKeys_inj (isJson_signed hjson') (isJson_signed hjson)
        (joinedVal_signed hjoined') (joinedVal_signed hje) ht hdumps
      exact hne (getItem_of_sortKeys_eq (isJson_signed hjson').here.2 (isJson_signed hjson).here.2
        hsorted (getItem_signed hjson'.here.2 hkey (getItem_setItem key v' e))
        (getItem_signed hjson.here.2 hkey hget))
    · rw [hsign']
      exact error_ne_hex (hR.hmac_hex _)
  unfold verifyLogIntegrity
  rw [hstored]
  simp only
  rw [compareDigest_str (ascii_sign hR hjson) (ascii_sign hR hjson'), decide_eq_false hdiffer]

/-! ## The trail -/

variable (R) in
/-- The file gives back these entries, each of them verifies, and none does with a field other than
the signature changed to another value of JSON. -/
structure Faithful (entries : List (List (PyKey Obj × PyVal Obj))) (file : PyStr) : Prop where
  read : ∀ ahead, R.readFromFile ahead ((fileLines file).map some) = entries.map .dict
  verified : ∀ e ∈ entries, R.verifyLogIntegrity e = .ok true
  detected : ∀ e ∈ entries, ∀ key v v', key ≠ u "integrity_signature" → getItem key e = some v →
    IsJson v' → JoinedVal v' → sortKeys v' ≠ sortKeys v →
      R.verifyLogIntegrity (setItem key v' e) = .ok false

theorem readFromFile_of_lines (ahead : ℕ) (lines : List PyStr) :
    R.readFromFile ahead (lines.map some) = R.readLines lines := by
  unfold readFromFile
  have hreduce : (lines.map some).reduceOption = (lines.map some).filterMap id := rfl
  rw [if_pos (by simp), hreduce, List.filterMap_map]
  simp

/-- The file that calls with values of JSON leave is a faithful trail of them exactly when each
stores values that are written and read as they are. -/
theorem faithful_iff (hR : Lawful R) {s t : TamperLogger Obj} (hs : s.file = [])
    {calls : List (Stamp × LogArgs Obj)} (hcalls : ∀ c ∈ calls, Native c.2)
    {entries : List (List (PyKey Obj × PyVal Obj))} (h : R.Runs s calls entries t) :
    R.Faithful entries t.file ↔ ∀ c ∈ calls, R.Plain c.2 := by
  have hentry := forall₂_of_runs h
  have hwhole : WholeLines s.file := by
    rw [hs]
    exact fun c hc => absurd hc (by simp)
  have hlines : fileLines t.file = entries.filterMap R.lineOf := by
    rw [lines_of_runs h hwhole, hs]
    rfl
  have hcall : ∀ e ∈ entries, ∃ c ∈ calls, R.entry c.1 c.2 = .ok e := by
    exact fun e he => exists_of_mem_right hentry he
  have hjson : ∀ e ∈ entries, IsJson (.dict e) := by
    intro e he
    obtain ⟨c, hc, hce⟩ := hcall e he
    exact isJson_entry (hcalls c hc) hce
  have hplain : (∀ e ∈ entries, R.PlainAt 0 (.dict e)) ↔ ∀ c ∈ calls, R.Plain c.2 := by
    constructor
    · intro hall c hc
      obtain ⟨e, he, hce⟩ := exists_of_mem_left hentry hc
      exact (plainAt_entry_iff hR (hcalls c hc) hce).mp (hall e he)
    · intro hall e he
      obtain ⟨c, hc, hce⟩ := hcall e he
      exact (plainAt_entry_iff hR (hcalls c hc) hce).mpr (hall c hc)
  rw [← hplain, ← readLines_eq_iff hjson]
  constructor
  · intro hfaithful
    have hread := hfaithful.read 0
    rw [readFromFile_of_lines, hlines] at hread
    exact hread
  · intro hread
    have hall := (readLines_eq_iff hjson).mp hread
    refine ⟨fun ahead => ?_, fun e he => ?_, fun e he key v v' hkey hget hv' hjoined hne => ?_⟩
    · rw [readFromFile_of_lines, hlines, hread]
    · obtain ⟨c, hc, hce⟩ := hcall e he
      exact verify_entry hR (hcalls c hc) hce
    · obtain ⟨c, hc, hce⟩ := hcall e he
      exact verify_setItem hR (hcalls c hc) hce (hall e he) hkey hget hv' hjoined hne

end Runtime

/-! ## An integer with too many digits -/

theorem hexText_cons (c : CodePoint) (s : PyStr) : hexText (c :: s) =
    [hexDigit (c.val / 0x100000), hexDigit (c.val / 0x10000 % 16), hexDigit (c.val / 0x1000 % 16),
      hexDigit (c.val / 0x100 % 16), hexDigit (c.val / 0x10 % 16), hexDigit (c.val % 16)] ++
        hexText s := rfl

theorem hexText_injective : Function.Injective hexText := by
  have hdigit {m n : ℕ} (hm : m < 16) (hn : n < 16) (h : hexDigit m = hexDigit n) : m = n := by
    have hback := congrArg hexVal h
    rw [hexVal_hexDigit hm, hexVal_hexDigit hn] at hback
    exact Option.some.inj hback
  intro s
  induction s with
  | nil =>
    intro t h
    cases t with
    | nil => rfl
    | cons d t =>
      rw [hexText_cons] at h
      exact absurd h (by simp [hexText])
  | cons c s ih =>
    intro t h
    cases t with
    | nil =>
      rw [hexText_cons] at h
      exact absurd h (by simp [hexText])
    | cons d t =>
      rw [hexText_cons, hexText_cons] at h
      simp only [List.cons_append, List.nil_append, List.cons.injEq] at h
      obtain ⟨h1, h2, h3, h4, h5, h6, hrest⟩ := h
      have h1 := hdigit (by omega) (by omega) h1
      have h2 := hdigit (by omega) (by omega) h2
      have h3 := hdigit (by omega) (by omega) h3
      have h4 := hdigit (by omega) (by omega) h4
      have h5 := hdigit (by omega) (by omega) h5
      have h6 := hdigit (by omega) (by omega) h6
      have hcd : c = d := by
        apply Fin.ext
        omega
      rw [hcd, ih hrest]

theorem hex_hexText (s : PyStr) : Hex (hexText s) := by
  intro c hc
  obtain ⟨x, -, hx⟩ := List.mem_flatMap.mp hc
  have hdigit {n : ℕ} (hn : n < 16) : (hexVal (hexDigit n)).isSome = true := by
    rw [hexVal_hexDigit hn]
    rfl
  simp only [List.mem_cons, List.not_mem_nil, or_false] at hx
  rcases hx with rfl | rfl | rfl | rfl | rfl | rfl
  all_goals exact hdigit (by omega)

set_option maxRecDepth 2000 in
theorem ascii_dateRuntime : Ascii dateRuntime.digitsError ∧ Ascii dateRuntime.depthError ∧
    ∀ s, Ascii (dateRuntime.encodeError s) :=
  ⟨.append (Runtime.ascii_u (by decide +kernel)) (Runtime.ascii_u (by decide +kernel)),
    Runtime.ascii_u (by decide +kernel), fun _ => Runtime.ascii_u (by decide +kernel)⟩

theorem lawful_dateRuntime : Lawful dateRuntime where
  hmac_injective := hexText_injective
  hmac_hex := hex_hexText
  sha256_hex := hex_hexText
  digitsError_ascii := ascii_dateRuntime.1
  depthError_ascii := ascii_dateRuntime.2.1
  encodeError_ascii := ascii_dateRuntime.2.2
  repr_escaped v s h c hc := by
    obtain rfl := Except.ok.inj h
    have hrange := printable_print v c hc
    rw [← Bool.not_eq_true, isHigh_iff]
    omega

/-- Values of JSON in the client info of a call are all its values. -/
theorem native_connectArgs {info : List (PyKey PyStr × PyVal PyStr)} (h : IsJson (.dict info)) :
    Native (connectArgs info) := by
  have hscalar {v : PyVal PyStr} (hv : v.children = []) (hnode : JsonNode v) : IsJson v :=
    Runtime.isJson_of_children hv hnode
  unfold Native
  simp only [connectArgs, List.forall_mem_cons, List.not_mem_nil, false_imp_iff, implies_true,
    and_true]
  exact ⟨hscalar rfl trivial, hscalar rfl trivial, hscalar rfl trivial, h, hscalar rfl trivial,
    hscalar rfl trivial, hscalar rfl trivial, hscalar rfl trivial, hscalar rfl trivial,
    hscalar rfl trivial, hscalar rfl trivial⟩

theorem isJson_field (name : String) {v : PyVal Obj} (h : IsJson v) :
    IsJson (.dict [field name v]) := by
  refine isJson_dict ⟨fun i hi => ?_, List.nodup_singleton _⟩ fun i hi => ?_
  · rw [List.mem_singleton.mp hi]
    exact ⟨_, rfl⟩
  · rw [List.mem_singleton.mp hi]
    exact h

/-- A run of one call, by its answer. -/
theorem exists_runs_of_isOk {R : Runtime Obj} {stamp : Stamp} {args : LogArgs Obj}
    {s : TamperLogger Obj} (h : (R.log stamp args s).2.isOk = true) :
    ∃ e t, R.entry stamp args = .ok e ∧ R.Runs s [(stamp, args)] [e] t := by
  obtain ⟨t, id, hlog⟩ := exists_log_of_isOk h
  obtain ⟨e, hentry, -⟩ := Runtime.log_eq_ok hlog
  exact ⟨e, t, hentry, .cons hlog hentry (.nil t)⟩

/-- A call with the address of the client. -/
def addressArgs : LogArgs PyStr := connectArgs [field "client_ip" (.str (u "10.1.100.5"))]

theorem native_addressArgs : Native addressArgs :=
  native_connectArgs (isJson_field "client_ip" (Runtime.isJson_of_children rfl trivial))

/-- A call with the address of the client stores values that are written and read as they are. -/
theorem plain_addressArgs : dateRuntime.Plain addressArgs := by
  have hlevels := Runtime.levelled_plainAt lawful_dateRuntime
  have hroom {k : ℕ} (hk : k ≤ 990) : dateRuntime.PlainAt k .none :=
    ⟨dateRuntime.writable_of_scalar (by simp) (by simp) trivial,
      Runtime.joinedVal_scalar rfl trivial, PyVal.under_scalar hk (by simp) (by simp),
      PyVal.under_scalar hk (by simp) (by simp)⟩
  have hstr (k : ℕ) (hk : k ≤ 990) (s : String) : dateRuntime.PlainAt k (.str (u s)) :=
    hlevels.str (hroom hk) (joined_u s)
  refine ⟨?_, fun _ => ?_, fun key _ _ v hv => ?_⟩
  · simp only [addressArgs, connectArgs, List.forall_mem_cons, List.not_mem_nil, false_imp_iff,
      implies_true, and_true]
    exact ⟨hstr 1 (by decide) _, hstr 1 (by decide) _, hstr 1 (by decide) _,
      hstr 1 (by decide) _, hroom (by decide), hroom (by decide)⟩
  · refine hlevels.dict (fun i hi => ?_) (List.nodup_singleton _) (hroom (by decide))
      fun i hi => ?_
    · rw [List.mem_singleton.mp hi]
      exact ⟨"client_ip", rfl⟩
    · rw [List.mem_singleton.mp hi]
      exact hstr 2 (by decide) _
  · obtain rfl : PyVal.none = v := Except.ok.inj hv
    exact hroom (by decide)

/-- The trail of a call with the address of the client is faithful. -/
theorem faithful_iff_address :
    ∃ e t, dateRuntime.Runs emptyLogger
        [(noon, connectArgs [field "client_ip" (.str (u "10.1.100.5"))])] [e] t ∧
      dateRuntime.Faithful [e] t.file := by
  have hok : (dateRuntime.log noon (connectArgs [field "client_ip" (.str (u "10.1.100.5"))])
      emptyLogger).2.isOk = true := by
    decide +kernel
  obtain ⟨e, t, -, hruns⟩ := exists_runs_of_isOk hok
  refine ⟨e, t, hruns, (Runtime.faithful_iff lawful_dateRuntime rfl ?_ hruns).mpr ?_⟩
  · exact fun c hc => List.mem_singleton.mp hc ▸ native_addressArgs
  · exact fun c hc => List.mem_singleton.mp hc ▸ plain_addressArgs

/-- A power of ten has a digit more than its exponent. -/
theorem not_writesNode_pow (R : Runtime Obj) (hpos : 0 < R.maxDigits) :
    ¬ R.WritesNode (.int (10 ^ R.maxDigits)) := by
  intro h
  change (natText (10 ^ R.maxDigits : ℤ).natAbs).length ≤ R.maxDigits at h
  rw [Int.natAbs_pow, natText, List.length_map, Nat.length_toDigits_le_iff (by decide) hpos] at h
  exact lt_irrefl _ h

/-- A call with an integer of 4301 digits returns, and its entry is not in the file. -/
theorem exists_runs_not_faithful :
    ∃ e t, dateRuntime.Runs emptyLogger
        [(noon, connectArgs [field "n" (.int (10 ^ 4300))])] [e] t ∧
      Native (connectArgs [field "n" (.int (10 ^ 4300))]) ∧ ¬ dateRuntime.Faithful [e] t.file := by
  have hok : (dateRuntime.log noon (connectArgs [field "n" (.int (10 ^ 4300))])
      emptyLogger).2.isOk = true := by
    decide +kernel
  obtain ⟨e, t, hentry, hruns⟩ := exists_runs_of_isOk hok
  have hint : IsJson (.int (10 ^ 4300) : PyVal PyStr) := Runtime.isJson_of_children rfl trivial
  have hnative := native_connectArgs (isJson_field "n" hint)
  refine ⟨e, t, hruns, hnative, fun h => ?_⟩
  have hread := h.read 0
  have hlines := Runtime.lines_of_runs hruns (by simp [WholeLines, emptyLogger])
  have hjson : ∀ e' ∈ [e], IsJson (.dict e') := by
    intro e' he'
    rw [List.mem_singleton.mp he']
    exact Runtime.isJson_entry hnative hentry
  rw [Runtime.readFromFile_of_lines, hlines] at hread
  have hplain := (Runtime.readLines_eq_iff hjson).mp hread e List.mem_cons_self
  have hstored := (Runtime.plainAt_entry_iff lawful_dateRuntime hnative hentry).mp hplain
  have hinfo := dateRuntime.writable_dict.mp (hstored.clientInfo rfl).1 _ List.mem_cons_self
  exact not_writesNode_pow dateRuntime (by decide) hinfo.2.here

end ControlPlane.Secure
