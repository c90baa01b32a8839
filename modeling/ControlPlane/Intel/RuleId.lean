import ControlPlane.Intel.PushedRule
import ControlPlane.Intel.Rebind

/-!
# The id of a flow

`_deterministic_rule_id` hashes the addresses as an intent has them, and the backend pushes them
with the length that a bare one lacks. So two intents that push one rule have one id exactly when
they write their addresses alike (`ruleId_eq_iff`), unless the digests of two keys begin alike.
-/

namespace ControlPlane.Intel

open Text

/-- The intents of the program, none of which is built with an id: the one that the decision of the
model makes, and the one that a stored template makes. -/
inductive Built (py : Py) (P : Pydantic) : PolicyIntent → Prop where
  | decided {raw : List (String × Json)} {intent : PolicyIntent}
    (h : PolicyIntent.validate py P raw = .ok intent)
    (hid : Field.text raw "rule_id" (some "") = some "") : Built py P intent
  | rebound {cached : Json} {alert : SuricataAlert} {intent : PolicyIntent}
    (h : rebindCachedIntent py P cached alert = some intent) : Built py P intent

/-- The protocol of a body, in lower case. -/
def pushedProtocol (py : Py) (payload : List (String × Json)) : Option String :=
  match Json.lookup "protocol" payload with
  | some (.str protocol) => some (py.lower protocol)
  | _ => none

/-- The bodies that `enforce` posts for two intents have the same flow, with the protocol in any
case. -/
structure SamePush (py : Py) (i j : PolicyIntent) : Prop where
  srcIp : Json.lookup "src_ip" (proxyPayload i.toPolicyRule) =
    Json.lookup "src_ip" (proxyPayload j.toPolicyRule)
  dstIp : Json.lookup "dst_ip" (proxyPayload i.toPolicyRule) =
    Json.lookup "dst_ip" (proxyPayload j.toPolicyRule)
  dstPort : Json.lookup "dst_port" (proxyPayload i.toPolicyRule) =
    Json.lookup "dst_port" (proxyPayload j.toPolicyRule)
  protocol : pushedProtocol py (proxyPayload i.toPolicyRule) =
    pushedProtocol py (proxyPayload j.toPolicyRule)

/-- What `str.lower` does at a bar and at a slash, which have no case and end a word. -/
structure LowersParts (py : Py) : Prop where
  bar : ∀ s t, py.lower (s ++ "|" ++ t) = py.lower s ++ "|" ++ py.lower t
  length : ∀ s, py.lower (s ++ "/32") = py.lower s ++ "/32"

section

variable (py : Py)

/-- The key of a flow, which is hashed. -/
def flowKey (i : PolicyIntent) : String :=
  py.lower (i.srcIp ++ "|" ++ i.dstIp ++ "|" ++ toString i.dstPort ++ "|" ++ i.protocol)

/-- The id that the digest of a key gives. -/
def idOfKey (key : String) : String := "agent-" ++ String.ofList ((py.sha256 key).toList.take 10)

/-- Two keys whose digests begin alike. -/
def Collide (k l : String) : Prop := k ≠ l ∧ idOfKey py k = idOfKey py l

end

variable {py : Py} {P : Pydantic} {i j : PolicyIntent}

/-- The intents of the program have the id of their flow. -/
theorem Built.ruleId_eq (h : Built py P i) : i.ruleId = idOfKey py (flowKey py i) := by
  cases h with
  | decided h hid =>
    obtain ⟨-, -, -, ruleId, hruleId, heq⟩ := PolicyIntent.validate_eq_ok h
    have hempty : ruleId = "" := Option.some_inj.mp (hruleId.symm.trans hid)
    rw [heq, if_pos hempty]
    rfl
  | rebound h => exact ruleId_of_rebind h

/-! ## Spellings -/

/-- Two addresses that are pushed alike are written alike, or one of them lacks the length. -/
theorem eq_or_eq_append_of_pushedSrc {s t : String} (h : pushedSrc s = pushedSrc t) :
    s = t ∨ t = s ++ "/32" ∨ s = t ++ "/32" := by
  unfold pushedSrc at h
  split_ifs at h with hs ht ht
  · exact .inl h
  · exact .inr (.inr h)
  · exact .inr (.inl h.symm)
  · exact .inl (String.append_left_inj _ |>.mp h)

theorem eq_or_eq_append_of_pushedDst {s t : String} (h : pushedDst s = pushedDst t) :
    s = t ∨ t = s ++ "/32" ∨ s = t ++ "/32" := by
  unfold pushedDst at h
  split_ifs at h with hs ht ht
  · exact .inl (hs.trans ht.symm)
  · exact absurd h.symm (pushedSrc_ne t)
  · exact absurd h (pushedSrc_ne s)
  · exact eq_or_eq_append_of_pushedSrc h

theorem SamePush.pushedSrc_eq (h : SamePush py i j) : pushedSrc i.srcIp = pushedSrc j.srcIp := by
  have hsrc := h.srcIp
  rw [(lookup_proxyPayload _).2.1, (lookup_proxyPayload _).2.1] at hsrc
  exact Json.str.inj (Option.some_inj.mp hsrc)

theorem SamePush.pushedDst_eq (h : SamePush py i j) : pushedDst i.dstIp = pushedDst j.dstIp := by
  have hdst := h.dstIp
  rw [(lookup_optional_proxyPayload _).1, (lookup_optional_proxyPayload _).1] at hdst
  split_ifs at hdst with hi hj hj
  · rw [hi, hj]
  · exact Json.str.inj (Option.some_inj.mp hdst)

theorem SamePush.dstPort_eq (h : SamePush py i j) : i.dstPort = j.dstPort := by
  have hport := h.dstPort
  rw [(lookup_optional_proxyPayload _).2.1, (lookup_optional_proxyPayload _).2.1] at hport
  split_ifs at hport with hi hj hj
  · rw [hi, hj]
  · exact Json.int.inj (Option.some_inj.mp hport)

theorem SamePush.lower_eq (h : SamePush py i j) : py.lower i.protocol = py.lower j.protocol := by
  have hprotocol := h.protocol
  unfold pushedProtocol at hprotocol
  rw [(lookup_optional_proxyPayload _).2.2, (lookup_optional_proxyPayload _).2.2] at hprotocol
  split_ifs at hprotocol with hi hj hj
  · rw [hi, hj]
  · exact Option.some_inj.mp hprotocol

/-! ## Keys -/

/-- The parts of a key. -/
theorem flowKey_eq (hl : LowersParts py) (i : PolicyIntent) :
    flowKey py i = py.lower i.srcIp ++ ("|" ++ (py.lower i.dstIp ++ ("|" ++
      (py.lower (toString i.dstPort) ++ ("|" ++ py.lower i.protocol))))) := by
  unfold flowKey
  rw [hl.bar, hl.bar, hl.bar]
  simp only [String.append_assoc]

/-- A key with a bar and a key with a slash after the same text are two. -/
theorem bar_ne_slash (s t u : String) : s ++ ("|" ++ t) ≠ s ++ "/32" ++ u := by
  intro h
  rw [String.append_assoc, String.append_right_inj] at h
  have hlist := congrArg String.toList h
  simp at hlist

/-- Two intents that push one rule have one key exactly when they write their addresses alike. -/
theorem flowKey_eq_iff (hl : LowersParts py) (h : SamePush py i j) :
    flowKey py i = flowKey py j ↔ i.srcIp = j.srcIp ∧ i.dstIp = j.dstIp := by
  have hport := h.dstPort_eq
  have hprotocol := h.lower_eq
  rw [flowKey_eq hl, flowKey_eq hl, hport, hprotocol]
  constructor
  · intro hkey
    -- where one of two sources lacks the length, its key goes on with a bar
    have hsrc : i.srcIp = j.srcIp := by
      rcases eq_or_eq_append_of_pushedSrc h.pushedSrc_eq with heq | hj | hi
      · exact heq
      · rw [hj, hl.length] at hkey
        exact absurd hkey (bar_ne_slash _ _ _)
      · rw [hi, hl.length] at hkey
        exact absurd hkey.symm (bar_ne_slash _ _ _)
    rw [hsrc, String.append_right_inj, String.append_right_inj] at hkey
    refine ⟨hsrc, ?_⟩
    rcases eq_or_eq_append_of_pushedDst h.pushedDst_eq with heq | hj | hi
    · exact heq
    · rw [hj, hl.length] at hkey
      exact absurd hkey (bar_ne_slash _ _ _)
    · rw [hi, hl.length] at hkey
      exact absurd hkey.symm (bar_ne_slash _ _ _)
  · rintro ⟨hsrc, hdst⟩
    rw [hsrc, hdst]

/-- Two intents that push one rule have one id exactly when they write their addresses alike, or the
digests of their two keys begin alike. -/
theorem ruleId_eq_iff (hl : LowersParts py) (hi : Built py P i) (hj : Built py P j)
    (h : SamePush py i j) :
    i.ruleId = j.ruleId ↔
      (i.srcIp = j.srcIp ∧ i.dstIp = j.dstIp) ∨ Collide py (flowKey py i) (flowKey py j) := by
  rw [hi.ruleId_eq, hj.ruleId_eq, ← flowKey_eq_iff hl h]
  constructor
  · intro hid
    by_cases hkey : flowKey py i = flowKey py j
    · exact .inl hkey
    · exact .inr ⟨hkey, hid⟩
  · rintro (hkey | ⟨-, hid⟩)
    · rw [hkey]
    · exact hid

/-! ## One host, written in two ways -/

/-- The interpreter, with the digests of two keys. -/
def digestPy : Py :=
  .ascii (fun key =>
    if key = "10.1.100.10||0|tcp" then
      "5f299ad385130d4633633246cf72766d0b3e1d48068fb93b2ef88a2fffb622f2"
    else if key = "10.1.100.10/32||0|tcp" then
      "3905f72edca9a7317dd8099cce3e4ee8e238019faf8866b92abdcda67b13da52"
    else "") fun _ => none

/-- A schema library that converts nothing. -/
def strictPydantic : Pydantic := ⟨fun _ => none, fun _ => none, fun _ => ""⟩

/-- The arguments of a drop of this source. -/
def dropArgs (srcIp protocol : String) : List (String × Json) :=
  [("action", .str "DROP"), ("src_ip", .str srcIp), ("protocol", .str protocol),
    ("confidence", .float ⟨.fin (9 / 10), "0.9"⟩)]

theorem lowersParts_digestPy : LowersParts digestPy where
  bar s t := by simp [digestPy, Py.ascii, String.append_assoc]
  length s := by simp [digestPy, Py.ascii]

/-- The flow and the id of an intent. -/
def flowAndId (i : PolicyIntent) : String × String × ℤ × String × String :=
  (i.srcIp, i.dstIp, i.dstPort, i.protocol, i.ruleId)

/-- The arguments of a drop make an intent. -/
theorem exists_built (srcIp protocol id : String)
    (h : (PolicyIntent.validate digestPy strictPydantic (dropArgs srcIp protocol)).toOption.map
      flowAndId = some (srcIp, "", 0, protocol, id)) :
    ∃ i, Built digestPy strictPydantic i ∧ flowAndId i = (srcIp, "", 0, protocol, id) := by
  obtain ⟨i, hi, hflow⟩ := Option.map_eq_some_iff.mp h
  cases hval : PolicyIntent.validate digestPy strictPydantic (dropArgs srcIp protocol) with
  | error e => simp [hval, Except.toOption] at hi
  | ok i' =>
    rw [hval] at hi
    obtain rfl : i' = i := Option.some_inj.mp hi
    exact ⟨i', .decided hval rfl, hflow⟩

/-- What pushes one rule. -/
theorem samePush_of_flowAndId {s t p q k l : String}
    (hi : flowAndId i = (s, "", 0, p, k)) (hj : flowAndId j = (t, "", 0, q, l))
    (hsrc : pushedSrc s = pushedSrc t) (hp : p ≠ "") (hq : q ≠ "")
    (hprotocol : py.lower p = py.lower q) : SamePush py i j := by
  simp only [flowAndId, Prod.mk.injEq] at hi hj
  obtain ⟨rfl, hidst, hiport, rfl, -⟩ := hi
  obtain ⟨rfl, hjdst, hjport, rfl, -⟩ := hj
  constructor
  · rw [(lookup_proxyPayload _).2.1, (lookup_proxyPayload _).2.1, hsrc]
  · rw [(lookup_optional_proxyPayload _).1, (lookup_optional_proxyPayload _).1, hidst, hjdst]
  · rw [(lookup_optional_proxyPayload _).2.1, (lookup_optional_proxyPayload _).2.1, hiport, hjport]
  · unfold pushedProtocol
    rw [(lookup_optional_proxyPayload _).2.2, (lookup_optional_proxyPayload _).2.2, if_neg hp,
      if_neg hq]
    exact congrArg some hprotocol

/-- The drops of a host as `tcp` and as `TCP` have one id. -/
theorem ruleId_eq_iff_protocol :
    ∃ i j, SamePush digestPy i j ∧ i.protocol = "tcp" ∧ j.protocol = "TCP" ∧
      (i.ruleId = j.ruleId ↔ (i.srcIp = j.srcIp ∧ i.dstIp = j.dstIp) ∨
        Collide digestPy (flowKey digestPy i) (flowKey digestPy j)) := by
  obtain ⟨i, hi, hiflow⟩ := exists_built "10.1.100.10" "tcp" "agent-5f299ad385" (by decide +kernel)
  obtain ⟨j, hj, hjflow⟩ := exists_built "10.1.100.10" "TCP" "agent-5f299ad385" (by decide +kernel)
  have hpush : SamePush digestPy i j :=
    samePush_of_flowAndId hiflow hjflow rfl (by decide) (by decide) (by decide +kernel)
  refine ⟨i, j, hpush, ?_, ?_, ruleId_eq_iff lowersParts_digestPy hi hj hpush⟩
  · exact congrArg (fun flow => flow.2.2.2.1) hiflow
  · exact congrArg (fun flow => flow.2.2.2.1) hjflow

/-- The drop of a host has another id when the model writes its address with the length that the
backend adds. -/
theorem exists_ruleId_ne :
    ¬ ∀ (py : Py) (P : Pydantic) (i j : PolicyIntent), LowersParts py → Built py P i →
      Built py P j → SamePush py i j → i.ruleId = j.ruleId := by
  intro hall
  obtain ⟨i, hi, hiflow⟩ := exists_built "10.1.100.10" "tcp" "agent-5f299ad385" (by decide +kernel)
  obtain ⟨j, hj, hjflow⟩ := exists_built "10.1.100.10/32" "tcp" "agent-3905f72edc" (by decide +kernel)
  have hpush : SamePush digestPy i j :=
    samePush_of_flowAndId hiflow hjflow (by decide +kernel) (by decide) (by decide) rfl
  have hid := hall digestPy strictPydantic i j lowersParts_digestPy hi hj hpush
  have hiid : i.ruleId = "agent-5f299ad385" := congrArg (fun flow => flow.2.2.2.2) hiflow
  have hjid : j.ruleId = "agent-3905f72edc" := congrArg (fun flow => flow.2.2.2.2) hjflow
  rw [hiid, hjid] at hid
  exact absurd hid (by decide)

end ControlPlane.Intel
