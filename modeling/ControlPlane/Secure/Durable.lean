import ControlPlane.Lib.JsonRoundTrip
import ControlPlane.Secure.TamperLogger

/-!
# Entries that reach the file

Which entries `log` writes. An entry is signed with `default=str` and written without, and both
steps keep their exceptions to themselves, so that a call may return with its entry in memory and no
line in the file. Whether it is written is decided by the values that the entry holds, which are
those of the arguments at a level of one or two (`Stored`): the file gets exactly one line with the
entry when these can be written and are not too deep (`recorded_iff`).
-/

namespace ControlPlane.Secure

open JsonText

variable {Obj : Type}

/-! ## What an entry holds -/

namespace Runtime

variable (R : Runtime Obj)

/-- The address of the client brings its port along. -/
def TakesPort (args : LogArgs Obj) : Prop :=
  R.truthy args.clientInfo = .ok true ∧
    (∃ given ip, R.given args.userIdentity (u "ip") = .ok given ∧
      R.orInfo args.clientInfo (u "client_ip") given = .ok ip ∧ R.truthy ip = .ok false) ∧
    R.contains (u "client_addr") args.clientInfo = .ok true ∧
    ∃ frozen host port rest,
      R.item (u "client_addr") args.clientInfo = .ok (.seq frozen (host :: port :: rest))

/-- The values of the arguments that an entry holds meet a condition at their levels: the fields of
the entry at the first, the fields of its identity at the second. -/
structure Stored (P : ℕ → PyVal Obj → Prop) (args : LogArgs Obj) : Prop where
  fields : ∀ v ∈ [args.eventType, args.action, args.severity, args.details, args.isTampering,
    args.transactionId], P 1 v
  clientInfo : R.truthy args.clientInfo = .ok true → P 1 args.clientInfo
  identity : ∀ key ∈ IDENTITY_KEYS, (key = u "port" → ¬ R.TakesPort args) →
    ∀ v, R.given args.userIdentity key = .ok v → P 2 v

/-- A condition on values at a level that goes down to the values in them, and up to dicts with
names for keys. The texts that are made up for an entry are good ones. -/
structure Levelled (P : ℕ → PyVal Obj → Prop) (Good : PyStr → Prop) : Prop where
  room : ∀ {k v}, P k v → P k .none
  str : ∀ {k s}, P k .none → Good s → P k (.str s)
  bool : ∀ {k b}, P k .none → P k (.bool b)
  up : ∀ {k v}, P (k + 1) v → P k v
  elems : ∀ {k frozen xs}, P k (.seq frozen xs) → ∀ x ∈ xs, P (k + 1) x
  items : ∀ {k items}, P k (.dict items) → ∀ i ∈ items, P (k + 1) i.2
  dict : ∀ {k items}, (∀ i ∈ items, ∃ name : String, i.1 = .str (u name)) →
    (items.map Prod.fst).Nodup → P (k + 1) .none → (∀ i ∈ items, P (k + 1) i.2) →
    P k (.dict items)
  not_other : ∀ {k o}, ¬ P k (.other o)
  strOf : ∀ {k v s}, P k v → R.strOf v = .ok s → P k (.str s)
  part : ∀ {k s p}, P k (.str s) → p <+: s → P k (.str p)

variable {R}

/-- What the given identity has under a key is something, or nothing is taken from it. -/
theorem given_eq_ok {userIdentity v : PyVal Obj} {key : PyStr}
    (h : R.given userIdentity key = .ok v) :
    v = .none ∨ R.item key userIdentity = .ok v ∧ R.truthy v = .ok true := by
  unfold given at h
  obtain ⟨b, -, h⟩ := except_bind_eq_ok h
  split_ifs at h
  · obtain ⟨b', -, h⟩ := except_bind_eq_ok h
    split_ifs at h
    · obtain ⟨w, hw, h⟩ := except_bind_eq_ok h
      obtain ⟨b'', hb, h⟩ := except_bind_eq_ok h
      split_ifs at h with h''
      · obtain rfl := Except.ok.inj h
        exact .inr ⟨hw, h'' ▸ hb⟩
      · exact .inl (Except.ok.inj h).symm
    · exact .inl (Except.ok.inj h).symm
  · exact .inl (Except.ok.inj h).symm

/-- A value stays when it is something, and otherwise may give place to one of the client info. -/
theorem orInfo_eq_ok {clientInfo v w : PyVal Obj} {key : PyStr}
    (h : R.orInfo clientInfo key v = .ok w) :
    w = v ∨ R.truthy v = .ok false ∧ R.item key clientInfo = .ok w := by
  unfold orInfo at h
  obtain ⟨b, hb, h⟩ := except_bind_eq_ok h
  cases b with
  | true => exact .inl (Except.ok.inj h).symm
  | false =>
    obtain ⟨b', -, h⟩ := except_bind_eq_ok h
    split_ifs at h
    · exact .inr ⟨hb, h⟩
    · exact .inl (Except.ok.inj h).symm

/-- What `client_addr` brings: nothing, the host and perhaps the port of a pair, or the host of a
text. -/
theorem orAddr_eq_ok {clientInfo ip port : PyVal Obj} {r : PyVal Obj × PyVal Obj}
    (h : R.orAddr clientInfo ip port = .ok r) :
    r = (ip, port) ∨ R.truthy ip = .ok false ∧ R.contains (u "client_addr") clientInfo = .ok true ∧
      ((∃ frozen host rest s,
        R.item (u "client_addr") clientInfo = .ok (.seq frozen (host :: rest)) ∧
        R.strOf host = .ok s ∧ r = (.str s, rest.head?.getD port)) ∨
      ∃ addr, R.item (u "client_addr") clientInfo = .ok (.str addr) ∧
        r = (.str (addr.takeWhile (· ≠ 58)), port)) := by
  unfold orAddr at h
  obtain ⟨b, hb, h⟩ := except_bind_eq_ok h
  cases b with
  | true => exact .inl (Except.ok.inj h).symm
  | false =>
    obtain ⟨b', hb', h⟩ := except_bind_eq_ok h
    cases b' with
    | false => exact .inl (Except.ok.inj h).symm
    | true =>
      obtain ⟨addr, haddr, h⟩ := except_bind_eq_ok h
      cases addr with
      | seq frozen xs =>
        cases xs with
        | nil => exact .inl (Except.ok.inj h).symm
        | cons host rest =>
          obtain ⟨s, hs, h⟩ := except_bind_eq_ok h
          exact .inr ⟨hb, hb', .inl ⟨frozen, host, rest, s, haddr, hs, (Except.ok.inj h).symm⟩⟩
      | str addr => exact .inr ⟨hb, hb', .inr ⟨addr, haddr, (Except.ok.inj h).symm⟩⟩
      | _ => exact .inl (Except.ok.inj h).symm

/-- What the client info adds, step by step. -/
theorem addInfo_eq_ok {clientInfo : PyVal Obj} {g i : Identity Obj}
    (h : R.addInfo clientInfo g = .ok i) :
    R.truthy clientInfo = .ok false ∧ i = g ∨ R.truthy clientInfo = .ok true ∧ ∃ ip role,
      R.orInfo clientInfo (u "client_ip") g.ip = .ok ip ∧
      R.orAddr clientInfo ip g.port = .ok (i.ip, i.port) ∧
      R.orInfo clientInfo (u "cert_cn") g.cn = .ok i.cn ∧
      R.orInfo clientInfo (u "cert_ou") g.ou = .ok i.ou ∧
      R.orInfo clientInfo (u "onap_role") g.role = .ok role ∧
      R.orInfo clientInfo (u "sonic_role") role = .ok i.role ∧
      R.orInfo clientInfo (u "session_id") g.sessionId = .ok i.sessionId := by
  unfold addInfo at h
  obtain ⟨b, hb, h⟩ := except_bind_eq_ok h
  cases b with
  | false => exact .inl ⟨hb, (Except.ok.inj h).symm⟩
  | true =>
    obtain ⟨ip, hip, h⟩ := except_bind_eq_ok h
    obtain ⟨⟨ip', port'⟩, haddr, h⟩ := except_bind_eq_ok h
    obtain ⟨cn, hcn, h⟩ := except_bind_eq_ok h
    obtain ⟨ou, hou, h⟩ := except_bind_eq_ok h
    obtain ⟨role, hrole, h⟩ := except_bind_eq_ok h
    obtain ⟨role', hrole', h⟩ := except_bind_eq_ok h
    obtain ⟨sessionId, hsession, h⟩ := except_bind_eq_ok h
    obtain rfl := Except.ok.inj h
    exact .inr ⟨hb, ip, role, hip, haddr, hcn, hou, hrole, hrole', hsession⟩

/-- The identity that is given, before the client info. -/
structure GivenIdentity (R : Runtime Obj) (userIdentity : PyVal Obj) (g : Identity Obj) :
    Prop where
  cn : R.given userIdentity (u "cn") = .ok g.cn
  ou : R.given userIdentity (u "ou") = .ok g.ou
  ip : R.given userIdentity (u "ip") = .ok g.ip
  port : R.given userIdentity (u "port") = .ok g.port
  role : R.given userIdentity (u "role") = .ok g.role
  sessionId : R.given userIdentity (u "session_id") = .ok g.sessionId

theorem buildIdentity_eq_ok {userIdentity clientInfo : PyVal Obj} {i : Identity Obj}
    (h : R.buildIdentity userIdentity clientInfo = .ok i) :
    ∃ g, GivenIdentity R userIdentity g ∧ R.addInfo clientInfo g = .ok i := by
  unfold buildIdentity at h
  obtain ⟨cn, hcn, h⟩ := except_bind_eq_ok h
  obtain ⟨ou, hou, h⟩ := except_bind_eq_ok h
  obtain ⟨ip, hip, h⟩ := except_bind_eq_ok h
  obtain ⟨port, hport, h⟩ := except_bind_eq_ok h
  obtain ⟨role, hrole, h⟩ := except_bind_eq_ok h
  obtain ⟨sessionId, hsession, h⟩ := except_bind_eq_ok h
  exact ⟨⟨cn, ou, ip, port, role, sessionId⟩, ⟨hcn, hou, hip, hport, hrole, hsession⟩, h⟩

/-- A value that is something stays. -/
theorem orInfo_of_truthy {clientInfo v w : PyVal Obj} {key : PyStr} (hv : R.truthy v = .ok true)
    (h : R.orInfo clientInfo key v = .ok w) : w = v := by
  rcases orInfo_eq_ok h with rfl | ⟨hno, -⟩
  · rfl
  · rw [hv] at hno
    simp at hno

section Levels

variable {P : ℕ → PyVal Obj → Prop} {Good : PyStr → Prop} (hP : R.Levelled P Good)

include hP

theorem item_level {k : ℕ} {clientInfo w : PyVal Obj} {key : PyStr} (hci : P k clientInfo)
    (h : R.item key clientInfo = .ok w) : P (k + 1) w := by
  cases clientInfo with
  | dict items =>
    unfold item at h
    simp only at h
    cases hget : getItem key items with
    | none => simp [hget] at h
    | some v =>
      simp only [hget, Except.ok.injEq] at h
      subst h
      obtain ⟨i, hi, rfl⟩ := Option.map_eq_some_iff.mp hget
      exact hP.items hci i (List.mem_of_find?_eq_some hi)
  | other o => exact absurd hci hP.not_other
  | _ => simp [item] at h

theorem orInfo_level {clientInfo v w : PyVal Obj} {key : PyStr} (hci : P 1 clientInfo)
    (hv : P 2 v) (h : R.orInfo clientInfo key v = .ok w) : P 2 w := by
  rcases orInfo_eq_ok h with rfl | ⟨-, hw⟩
  · exact hv
  · exact item_level hP hci hw

/-- What the given identity had under a key meets the condition when what it is in the end does. -/
theorem given_level {userIdentity v w : PyVal Obj} {key : PyStr}
    (hv : R.given userIdentity key = .ok v) (hkeep : R.truthy v = .ok true → w = v) (hw : P 2 w) :
    P 2 v := by
  rcases given_eq_ok hv with rfl | ⟨-, htruthy⟩
  · exact hP.room hw
  · exact hkeep htruthy ▸ hw

theorem addr_level {clientInfo ip port : PyVal Obj} {r : PyVal Obj × PyVal Obj}
    (hci : P 1 clientInfo) (hip : P 2 ip) (h : R.orAddr clientInfo ip port = .ok r) : P 2 r.1 := by
  rcases orAddr_eq_ok h with rfl | ⟨-, -, ⟨frozen, host, rest, s, hitem, hs, rfl⟩ |
    ⟨addr, hitem, rfl⟩⟩
  · exact hip
  · have hhost := hP.elems (item_level hP hci hitem) host List.mem_cons_self
    exact hP.up (hP.strOf hhost hs)
  · exact hP.part (item_level hP hci hitem) (List.takeWhile_prefix _)

end Levels

/-- The port that comes with the address takes the place of the given one. -/
theorem port_of_takesPort {args : LogArgs Obj} (ht : R.TakesPort args) {g i : Identity Obj}
    (hg : GivenIdentity R args.userIdentity g) (hi : R.addInfo args.clientInfo g = .ok i) :
    ∃ frozen host rest, R.item (u "client_addr") args.clientInfo =
      .ok (.seq frozen (host :: i.port :: rest)) := by
  obtain ⟨hci, ⟨given, ip, hgiven, hip, hfalsy⟩, hcontains, frozen, host, port, rest, hitem⟩ := ht
  rcases addInfo_eq_ok hi with ⟨hno, -⟩ | ⟨-, ip', role, hip', haddr, -⟩
  · rw [hci] at hno
    simp at hno
  · obtain rfl := Except.ok.inj (hgiven.symm.trans hg.ip)
    obtain rfl := Except.ok.inj (hip.symm.trans hip')
    unfold orAddr at haddr
    rw [hfalsy] at haddr
    simp only [bind, Except.bind, hcontains, hitem, Bool.false_eq_true, if_false, if_true] at haddr
    cases hs : R.strOf host with
    | error e => simp [hs] at haddr
    | ok s =>
      simp only [hs, pure, Except.pure, Except.ok.injEq, Prod.mk.injEq, List.head?_cons,
        Option.getD_some] at haddr
      exact ⟨frozen, host, rest, haddr.2 ▸ hitem⟩

/-- Without a port that comes with the address the given one stays. -/
theorem port_of_not_takesPort {args : LogArgs Obj} (ht : ¬ R.TakesPort args) {g i : Identity Obj}
    (hg : GivenIdentity R args.userIdentity g) (hi : R.addInfo args.clientInfo g = .ok i) :
    i.port = g.port := by
  rcases addInfo_eq_ok hi with ⟨-, rfl⟩ | ⟨hci, ip, role, hip, haddr, -⟩
  · rfl
  rcases orAddr_eq_ok haddr with h | ⟨hfalsy, hcontains, ⟨frozen, host, rest, s, hitem, -, h⟩ |
    ⟨addr, -, h⟩⟩
  · exact (Prod.mk.inj h).2
  · cases rest with
    | nil => exact (Prod.mk.inj h).2
    | cons port rest =>
      exact absurd ⟨hci, ⟨g.ip, ip, hg.ip, hip, hfalsy⟩, hcontains, frozen, host, port, rest, hitem⟩
        ht
  · exact (Prod.mk.inj h).2

/-- The values of an identity meet a condition when those that are given and kept do. -/
theorem identity_iff {P : ℕ → PyVal Obj → Prop} {Good : PyStr → Prop} (hP : R.Levelled P Good)
    {args : LogArgs Obj} (hci : R.truthy args.clientInfo = .ok true → P 1 args.clientInfo)
    {i : Identity Obj} (h : R.buildIdentity args.userIdentity args.clientInfo = .ok i) :
    (∀ v ∈ [i.cn, i.ou, i.ip, i.port, i.role, i.sessionId], P 2 v) ↔
      ∀ key ∈ IDENTITY_KEYS, (key = u "port" → ¬ R.TakesPort args) →
        ∀ v, R.given args.userIdentity key = .ok v → P 2 v := by
  obtain ⟨g, hg, hi⟩ := buildIdentity_eq_ok h
  constructor
  · intro hall
    -- A value of the given identity that is something is still there in the end.
    have hkeep : (R.truthy g.cn = .ok true → i.cn = g.cn) ∧
        (R.truthy g.ou = .ok true → i.ou = g.ou) ∧
        (R.truthy g.ip = .ok true → i.ip = g.ip) ∧ (R.truthy g.role = .ok true → i.role = g.role) ∧
        (R.truthy g.sessionId = .ok true → i.sessionId = g.sessionId) := by
      rcases addInfo_eq_ok hi with ⟨-, rfl⟩ | ⟨-, ip, role, hip, haddr, hcn, hou, hrole, hrole',
        hsession⟩
      · simp
      · refine ⟨fun ht => orInfo_of_truthy ht hcn, fun ht => orInfo_of_truthy ht hou, fun ht => ?_,
          fun ht => ?_, fun ht => orInfo_of_truthy ht hsession⟩
        · obtain rfl := orInfo_of_truthy ht hip
          rcases orAddr_eq_ok haddr with h | ⟨hno, -⟩
          · exact (Prod.mk.inj h).1
          · rw [ht] at hno
            simp at hno
        · obtain rfl := orInfo_of_truthy ht hrole
          exact orInfo_of_truthy ht hrole'
    obtain ⟨hcn, hou, hip, hrole, hsession⟩ := hkeep
    simp only [List.forall_mem_cons, List.not_mem_nil, false_imp_iff, implies_true, and_true]
      at hall
    obtain ⟨h1, h2, h3, h4, h5, h6⟩ := hall
    intro key hkey hport v hv
    simp only [IDENTITY_KEYS, List.map_cons, List.map_nil, List.mem_cons, List.not_mem_nil,
      or_false] at hkey
    rcases hkey with rfl | rfl | rfl | rfl | rfl | rfl
    · obtain rfl := Except.ok.inj (hv.symm.trans hg.cn)
      exact given_level hP hv hcn h1
    · obtain rfl := Except.ok.inj (hv.symm.trans hg.ou)
      exact given_level hP hv hou h2
    · obtain rfl := Except.ok.inj (hv.symm.trans hg.ip)
      exact given_level hP hv hip h3
    · obtain rfl := Except.ok.inj (hv.symm.trans hg.port)
      rw [← port_of_not_takesPort (hport rfl) hg hi]
      exact h4
    · obtain rfl := Except.ok.inj (hv.symm.trans hg.role)
      exact given_level hP hv hrole h5
    · obtain rfl := Except.ok.inj (hv.symm.trans hg.sessionId)
      exact given_level hP hv hsession h6
  · intro hall
    have hcn := hall (u "cn") (by decide) (fun h => absurd h (by decide)) _ hg.cn
    have hou := hall (u "ou") (by decide) (fun h => absurd h (by decide)) _ hg.ou
    have hip := hall (u "ip") (by decide) (fun h => absurd h (by decide)) _ hg.ip
    have hrole := hall (u "role") (by decide) (fun h => absurd h (by decide)) _ hg.role
    have hsession := hall (u "session_id") (by decide) (fun h => absurd h (by decide)) _
      hg.sessionId
    have hport : P 2 i.port := by
      by_cases ht : R.TakesPort args
      · obtain ⟨frozen, host, rest, hitem⟩ := port_of_takesPort ht hg hi
        have haddr := item_level hP (hci ht.1) hitem
        exact hP.up (hP.elems haddr i.port (by simp))
      · rw [port_of_not_takesPort ht hg hi]
        exact hall (u "port") (by decide) (fun _ => ht) _ hg.port
    simp only [List.forall_mem_cons, List.not_mem_nil, false_imp_iff, implies_true, and_true]
    rcases addInfo_eq_ok hi with ⟨-, rfl⟩ | ⟨htruthy, ip, role, hip', haddr, hcn', hou', hrole',
      hrole'', hsession'⟩
    · exact ⟨hcn, hou, hip, hport, hrole, hsession⟩
    · have hci := hci htruthy
      exact ⟨orInfo_level hP hci hcn hcn', orInfo_level hP hci hou hou',
        addr_level hP hci (orInfo_level hP hci hip hip') haddr, hport,
        orInfo_level hP hci (orInfo_level hP hci hrole hrole') hrole'',
        orInfo_level hP hci hsession hsession'⟩

theorem hashField_eq_ok {data v : PyVal Obj} (h : R.hashField data = .ok v) :
    v = .none ∨ v = .str (R.computeHash data) := by
  unfold hashField at h
  obtain ⟨b, -, h⟩ := except_bind_eq_ok h
  split_ifs at h
  · exact .inr (Except.ok.inj h).symm
  · exact .inl (Except.ok.inj h).symm

theorem tamperingOr_eq_ok {args : LogArgs Obj} {v : PyVal Obj} (h : R.tamperingOr args = .ok v) :
    v = args.isTampering ∨ args.isTampering = .none ∧ ∃ b, v = .bool b := by
  unfold tamperingOr at h
  split at h
  · next hnone =>
    obtain ⟨b, -, h⟩ := except_bind_eq_ok h
    exact .inr ⟨hnone, b, (Except.ok.inj h).symm⟩
  · exact .inl (Except.ok.inj h).symm

theorem infoOr_eq_ok {clientInfo v : PyVal Obj} (h : R.infoOr clientInfo = .ok v) :
    R.truthy clientInfo = .ok true ∧ v = clientInfo ∨
      R.truthy clientInfo = .ok false ∧ v = .dict [] := by
  unfold infoOr at h
  obtain ⟨b, hb, h⟩ := except_bind_eq_ok h
  cases b with
  | true => exact .inl ⟨hb, (Except.ok.inj h).symm⟩
  | false => exact .inr ⟨hb, (Except.ok.inj h).symm⟩

/-- The fields of an entry, one by one. -/
theorem fields_eq_ok {stamp : Stamp} {args : LogArgs Obj} {fs : List (PyKey Obj × PyVal Obj)}
    (h : R.fields stamp args = .ok fs) :
    ∃ isTampering identity requestHash beforeHash afterHash clientInfo,
      (isTampering = args.isTampering ∨ args.isTampering = .none ∧ ∃ b, isTampering = .bool b) ∧
      R.buildIdentity args.userIdentity args.clientInfo = .ok identity ∧
      R.hashField args.requestData = .ok requestHash ∧
      R.hashField args.dataBefore = .ok beforeHash ∧
      R.hashField args.dataAfter = .ok afterHash ∧
      (R.truthy args.clientInfo = .ok true ∧ clientInfo = args.clientInfo ∨
        R.truthy args.clientInfo = .ok false ∧ clientInfo = .dict []) ∧
      fs = [field "timestamp" (.str stamp.timestamp), field "event_type" args.eventType,
        field "action" args.action, field "severity" args.severity, field "details" args.details,
        field "is_tampering" isTampering, field "transaction_id" (args.idOr stamp),
        field "user_identity" identity.toVal, field "request_hash" requestHash,
        field "data_before_hash" beforeHash, field "data_after_hash" afterHash,
        field "client_info" clientInfo] := by
  unfold fields at h
  obtain ⟨isTampering, ht, h⟩ := except_bind_eq_ok h
  obtain ⟨identity, hidentity, h⟩ := except_bind_eq_ok h
  obtain ⟨requestHash, hrequest, h⟩ := except_bind_eq_ok h
  obtain ⟨beforeHash, hbefore, h⟩ := except_bind_eq_ok h
  obtain ⟨afterHash, hafter, h⟩ := except_bind_eq_ok h
  obtain ⟨clientInfo, hinfo, h⟩ := except_bind_eq_ok h
  exact ⟨isTampering, identity, requestHash, beforeHash, afterHash, clientInfo,
    tamperingOr_eq_ok ht, hidentity, hrequest, hbefore, hafter, infoOr_eq_ok hinfo,
    (Except.ok.inj h).symm⟩

/-- The texts that are made up for an entry are good ones. -/
structure GoodTexts (R : Runtime Obj) (Good : PyStr → Prop) (stamp : Stamp) (args : LogArgs Obj) :
    Prop where
  timestamp : Good stamp.timestamp
  uuid : Good stamp.uuid
  hash : ∀ data ∈ [args.requestData, args.dataBefore, args.dataAfter], Good (R.computeHash data)

theorem nodup_identity (i : Identity Obj) :
    ([field "cn" i.cn, field "ou" i.ou, field "ip" i.ip, field "port" i.port, field "role" i.role,
      field "session_id" i.sessionId].map Prod.fst).Nodup := by
  have hkeys : IDENTITY_KEYS.Nodup := by decide
  change (IDENTITY_KEYS.map PyKey.str).Nodup
  exact hkeys.map fun _ _ h => PyKey.str.inj h

/-- The fields of an entry meet a condition when the stored values of the arguments do. -/
theorem fields_iff {P : ℕ → PyVal Obj → Prop} {Good : PyStr → Prop} (hP : R.Levelled P Good)
    {stamp : Stamp} {args : LogArgs Obj} (hgood : GoodTexts R Good stamp args)
    {fs : List (PyKey Obj × PyVal Obj)} (h : R.fields stamp args = .ok fs) :
    (∀ i ∈ fs, P 1 i.2) ↔ R.Stored P args := by
  obtain ⟨isTampering, identity, requestHash, beforeHash, afterHash, clientInfo, htampering,
    hidentity, hrequest, hbefore, hafter, hci, rfl⟩ := fields_eq_ok h
  have hnames : ∀ i ∈ [field "cn" identity.cn, field "ou" identity.ou, field "ip" identity.ip,
      field "port" identity.port, field "role" identity.role,
      field "session_id" identity.sessionId], ∃ name : String, i.1 = .str (u name) := by
    simp [field]
  have hvalues : (∀ i ∈ [field "cn" identity.cn, field "ou" identity.ou, field "ip" identity.ip,
      field "port" identity.port, field "role" identity.role,
      field "session_id" identity.sessionId], P 2 i.2) ↔
        ∀ v ∈ [identity.cn, identity.ou, identity.ip, identity.port, identity.role,
          identity.sessionId], P 2 v := by
    simp [field]
  simp only [List.forall_mem_cons, List.not_mem_nil, false_imp_iff, implies_true, and_true, field]
  constructor
  · rintro ⟨-, hevent, haction, hseverity, hdetails, htamp, hid, hident, -, -, -, hinfo⟩
    have hclient : R.truthy args.clientInfo = .ok true → P 1 args.clientInfo := by
      intro ht
      rcases hci with ⟨-, rfl⟩ | ⟨hno, -⟩
      · exact hinfo
      · rw [ht] at hno
        simp at hno
    refine ⟨?_, hclient, (identity_iff hP hclient hidentity).mp
      (hvalues.mp fun i hi => hP.items hident i hi)⟩
    have htamp' : P 1 args.isTampering := by
      rcases htampering with rfl | ⟨hnone, -⟩
      · exact htamp
      · exact hnone ▸ hP.room haction
    have hid' : P 1 args.transactionId := by
      cases harg : args.transactionId with
      | none => exact hP.room haction
      | _ =>
        rw [LogArgs.idOr, harg] at hid
        exact hid
    simp only [List.forall_mem_cons, List.not_mem_nil, false_imp_iff, implies_true, and_true]
    exact ⟨hevent, haction, hseverity, hdetails, htamp', hid'⟩
  · rintro ⟨hfields, hclient, hident⟩
    simp only [List.forall_mem_cons, List.not_mem_nil, false_imp_iff, implies_true, and_true]
      at hfields
    obtain ⟨hevent, haction, hseverity, hdetails, htamp, hid⟩ := hfields
    have hroom := hP.room haction
    have hall := (identity_iff hP hclient hidentity).mpr hident
    have hroom2 := hP.room (hall identity.cn List.mem_cons_self)
    have hhash {data v : PyVal Obj} (hv : R.hashField data = .ok v)
        (hmem : data ∈ [args.requestData, args.dataBefore, args.dataAfter]) : P 1 v := by
      rcases hashField_eq_ok hv with rfl | rfl
      · exact hroom
      · exact hP.str hroom (hgood.hash data hmem)
    refine ⟨hP.str hroom hgood.timestamp, hevent, haction, hseverity, hdetails, ?_, ?_,
      hP.dict hnames (nodup_identity identity) hroom2 (hvalues.mpr hall),
      hhash hrequest (by simp), hhash hbefore (by simp), hhash hafter (by simp), ?_⟩
    · rcases htampering with rfl | ⟨-, b, rfl⟩
      · exact htamp
      · exact hP.bool hroom
    · unfold LogArgs.idOr
      split
      · exact hP.str hroom hgood.uuid
      · exact hid
    · rcases hci with ⟨ht, rfl⟩ | ⟨-, rfl⟩
      · exact hclient ht
      · exact hP.dict (by simp) List.nodup_nil hroom2 (by simp)

/-- An entry has the names of its fields for keys. -/
theorem names_of_fields {stamp : Stamp} {args : LogArgs Obj} {fs : List (PyKey Obj × PyVal Obj)}
    (h : R.fields stamp args = .ok fs) : ∀ i ∈ fs, ∃ name : String, i.1 = .str (u name) := by
  obtain ⟨_, _, _, _, _, _, -, -, -, -, -, -, rfl⟩ := fields_eq_ok h
  simp [field]

end Runtime

/-! ## What can be written -/

namespace Runtime

variable (R : Runtime Obj)

/-- A value that `json.dumps` writes at level `k` of an entry: there is no object in it, its keys
are texts, numbers, booleans or `None`, its integers are not too long, and it is not too deep. -/
def Fits (k : ℕ) (v : PyVal Obj) : Prop := R.Writable v ∧ v.Under R.dumpsDepth k

theorem writable_of_scalar {v : PyVal Obj} (hs : ∀ frozen xs, v ≠ .seq frozen xs)
    (hd : ∀ items, v ≠ .dict items) (h : R.WritesNode v) : R.Writable v :=
  ((R.writable_scalar hs hd (d := 0)).mpr h).1

theorem levelled_fits : R.Levelled R.Fits fun _ => True where
  room h := ⟨R.writable_of_scalar (by simp) (by simp) trivial,
    PyVal.under_scalar h.2.1 (by simp) (by simp)⟩
  str h _ := ⟨R.writable_of_scalar (by simp) (by simp) trivial,
    PyVal.under_scalar h.2.1 (by simp) (by simp)⟩
  bool h := ⟨R.writable_of_scalar (by simp) (by simp) trivial,
    PyVal.under_scalar h.2.1 (by simp) (by simp)⟩
  up h := ⟨h.1, h.2.up⟩
  elems h x hx := ⟨R.writable_seq.mp h.1 x hx, h.2.elems x hx⟩
  items h i hi := ⟨(R.writable_dict.mp h.1 i hi).2, h.2.items i hi⟩
  dict hnames _ hroom h := by
    refine ⟨R.writable_dict.mpr fun i hi => ⟨?_, (h i hi).1⟩,
      PyVal.under_dict hroom.2.1 fun i hi => (h i hi).2⟩
    obtain ⟨name, hname⟩ := hnames i hi
    rw [hname]
    trivial
  not_other h := h.1.here
  strOf h _ := ⟨R.writable_of_scalar (by simp) (by simp) trivial,
    PyVal.under_scalar h.2.1 (by simp) (by simp)⟩
  part h _ := ⟨R.writable_of_scalar (by simp) (by simp) trivial,
    PyVal.under_scalar h.2.1 (by simp) (by simp)⟩

/-- A dict with at least one item is written when its values can be at the next level. -/
theorem dumps_dict_eq_ok {items : List (PyKey Obj × PyVal Obj)} {t : PyStr} (hne : items ≠ [])
    (hnames : ∀ i ∈ items, ∃ name : String, i.1 = .str (u name)) :
    R.dumps R.plain (.dict items) = .ok t ↔
      (∀ i ∈ items, R.Fits 1 i.2) ∧ t = Interp.print (.dict items) := by
  unfold Interp.dumps
  rw [R.encode_plain_eq_ok]
  refine and_congr_left fun _ => ?_
  constructor
  · rintro ⟨hw, hd⟩ i hi
    have hunder : (PyVal.dict items).Under R.dumpsDepth 0 := ⟨Nat.zero_le _, hd⟩
    exact ⟨(R.writable_dict.mp hw i hi).2, hunder.items i hi⟩
  · intro h
    obtain ⟨i, hi⟩ := List.exists_mem_of_ne_nil items hne
    refine ⟨R.writable_dict.mpr fun j hj => ⟨?_, (h j hj).1⟩,
      (PyVal.under_dict (h i hi).2.1 fun j hj => (h j hj).2).2⟩
    obtain ⟨name, hname⟩ := hnames j hj
    rw [hname]
    trivial

end Runtime

/-! ## The lines of the file -/

/-- A file whose last line has ended. -/
def WholeLines (file : PyStr) : Prop := ∀ c ∈ file.getLast?, c = 10 ∨ c = 13

theorem lineState_concat (file : PyStr) (c : CodePoint) :
    lineState (file ++ [c]) = (lineState file).step c := by
  unfold lineState
  rw [List.foldl_append, List.foldl_cons, List.foldl_nil]

/-- There is nothing of the next line behind a carriage return. -/
theorem line_of_cr (file : PyStr) (h : (lineState file).cr = true) :
    (lineState file).line = [] := by
  induction file using List.reverseRecOn with
  | nil => rfl
  | append_singleton file c ih =>
    rw [lineState_concat] at h ⊢
    unfold LineState.step at h ⊢
    split_ifs at h ⊢ with h10 hcr h13
    · rfl

theorem line_eq_nil_iff (file : PyStr) : (lineState file).line = [] ↔ WholeLines file := by
  induction file using List.reverseRecOn with
  | nil => simp [lineState, WholeLines]
  | append_singleton file c ih =>
    rw [lineState_concat]
    unfold LineState.step WholeLines
    rw [List.getLast?_concat]
    split_ifs with h10 hcr h13
    · simp [h10, line_of_cr file hcr]
    · simp [h10]
    · simp [h13]
    · simp [h10, h13]

/-- A text without line ends stays on its line. -/
theorem foldl_step_of_forall {t : PyStr} (ht : ∀ c ∈ t, c ≠ 10 ∧ c ≠ 13) (hne : t ≠ [])
    (s : LineState) : t.foldl LineState.step s = ⟨s.done, false, s.line ++ t⟩ := by
  induction t generalizing s with
  | nil => exact absurd rfl hne
  | cons c t ih =>
    have hc := ht c List.mem_cons_self
    have hstep : s.step c = ⟨s.done, false, s.line ++ [c]⟩ := by
      rw [LineState.step, if_neg hc.1, if_neg hc.2]
    rw [List.foldl_cons, hstep]
    cases t with
    | nil => rfl
    | cons c' t =>
      rw [ih (fun d hd => ht d (List.mem_cons_of_mem c hd)) (List.cons_ne_nil c' t)]
      simp

/-- A line that is appended to a file ends the one that is there. -/
theorem lineState_append {t : PyStr} (ht : ∀ c ∈ t, c ≠ 10 ∧ c ≠ 13) (hne : t ≠ [])
    (file : PyStr) : lineState (file ++ t ++ [10]) =
      ⟨(lineState file).done ++ [(lineState file).line ++ t], false, []⟩ := by
  unfold lineState
  rw [List.foldl_append, List.foldl_append, foldl_step_of_forall ht hne]
  rfl

/-- An appended line is one more exactly when the last one had ended. -/
theorem fileLines_append_iff {t : PyStr} (ht : ∀ c ∈ t, c ≠ 10 ∧ c ≠ 13) (hne : t ≠ [])
    (file : PyStr) :
    (∃ line, fileLines (file ++ t ++ [10]) = fileLines file ++ [line]) ↔ WholeLines file := by
  unfold fileLines
  rw [lineState_append ht hne, ← line_eq_nil_iff]
  constructor
  · rintro ⟨line, h⟩
    by_contra hline
    rw [if_pos rfl, if_neg hline] at h
    have hlen := congrArg List.length h
    simp only [List.length_append, List.length_cons, List.length_nil] at hlen
    omega
  · intro hline
    rw [if_pos rfl, if_pos hline, hline]
    exact ⟨t, by simp⟩

theorem fileLines_append {t : PyStr} (ht : ∀ c ∈ t, c ≠ 10 ∧ c ≠ 13) (hne : t ≠ []) {file : PyStr}
    (hfile : WholeLines file) : fileLines (file ++ t ++ [10]) = fileLines file ++ [t] := by
  have hline := (line_eq_nil_iff file).mpr hfile
  unfold fileLines
  rw [lineState_append ht hne, if_pos rfl, if_pos hline, hline]
  simp

/-- The text of a dict is one line. -/
theorem line_of_print {v : PyVal Obj} : ∀ c ∈ Interp.print v, c ≠ 10 ∧ c ≠ 13 := by
  intro c hc
  have hrange := printable_print v c hc
  constructor
  · rintro rfl
    exact absurd hrange (by decide)
  · rintro rfl
    exact absurd hrange (by decide)

theorem print_dict_ne_nil (items : List (PyKey Obj × PyVal Obj)) :
    Interp.print (.dict items) ≠ [] := by
  rw [Interp.print, dictText]
  exact List.cons_ne_nil _ _

/-! ## A call and its line -/

namespace Runtime

variable (R : Runtime Obj)

/-- The file got exactly one line, and this is the entry of the call. -/
def Recorded (stamp : Stamp) (args : LogArgs Obj) (file file' : PyStr) : Prop :=
  ∃ entry line, R.entry stamp args = .ok entry ∧ R.dumps R.plain (.dict entry) = .ok line ∧
    fileLines file' = fileLines file ++ [line]

variable {R}

theorem entry_eq_ok {stamp : Stamp} {args : LogArgs Obj} {entry : List (PyKey Obj × PyVal Obj)}
    (h : R.entry stamp args = .ok entry) :
    ∃ fs, R.fields stamp args = .ok fs ∧
      entry = fs ++ [field "integrity_signature" (.str (R.sign fs))] := by
  unfold Runtime.entry at h
  obtain ⟨fs, hfs, h⟩ := except_bind_eq_ok h
  exact ⟨fs, hfs, (Except.ok.inj h).symm⟩

/-- A call that returns has appended its entry. -/
theorem log_eq_ok {stamp : Stamp} {args : LogArgs Obj} {s s' : TamperLogger Obj} {id : PyVal Obj}
    (h : R.log stamp args s = (s', .ok id)) :
    ∃ entry, R.entry stamp args = .ok entry ∧ s' = R.append entry s := by
  unfold log at h
  cases hentry : R.entry stamp args with
  | error e => simp [hentry] at h
  | ok entry =>
    simp only [hentry, Prod.mk.injEq] at h
    exact ⟨entry, rfl, h.1.symm⟩

/-- An entry can be written exactly when the stored values of the arguments can. -/
theorem dumps_entry_eq_ok {stamp : Stamp} {args : LogArgs Obj}
    {entry : List (PyKey Obj × PyVal Obj)} (h : R.entry stamp args = .ok entry) {t : PyStr} :
    R.dumps R.plain (.dict entry) = .ok t ↔
      R.Stored R.Fits args ∧ t = Interp.print (.dict entry) := by
  obtain ⟨fs, hfs, rfl⟩ := entry_eq_ok h
  have hnames : ∀ i ∈ fs ++ [field "integrity_signature" (.str (R.sign fs))],
      ∃ name : String, i.1 = .str (u name) := by
    intro i hi
    rcases List.mem_append.mp hi with hi | hi
    · exact names_of_fields hfs i hi
    · rw [List.mem_singleton.mp hi]
      exact ⟨"integrity_signature", rfl⟩
  have hgood : GoodTexts R (fun _ => True) stamp args := ⟨trivial, trivial, fun _ _ => trivial⟩
  rw [R.dumps_dict_eq_ok (by simp) hnames, ← fields_iff R.levelled_fits hgood hfs]
  refine and_congr_left fun _ => ?_
  rw [List.forall_mem_append]
  constructor
  · exact fun hall => hall.1
  · intro hall
    have hroom : R.Fits 1 .none := by
      obtain ⟨_, _, _, _, _, _, -, -, -, -, -, -, rfl⟩ := fields_eq_ok hfs
      exact R.levelled_fits.room (hall _ List.mem_cons_self)
    refine ⟨hall, fun i hi => ?_⟩
    rw [List.mem_singleton.mp hi]
    exact R.levelled_fits.str hroom trivial

/-- A call that returns has its entry in the file, on a line of its own, exactly when the values
that it stores can be written as JSON and the last line of the file had ended. -/
theorem recorded_iff {stamp : Stamp} {args : LogArgs Obj} {s s' : TamperLogger Obj}
    {id : PyVal Obj} (h : R.log stamp args s = (s', .ok id)) :
    R.Recorded stamp args s.file s'.file ↔ R.Stored R.Fits args ∧ WholeLines s.file := by
  obtain ⟨entry, hentry, rfl⟩ := log_eq_ok h
  change R.Recorded stamp args s.file (R.writeToFile entry s.file) ↔ _
  constructor
  · rintro ⟨entry', line, hentry', hline, hlines⟩
    obtain rfl := Except.ok.inj (hentry.symm.trans hentry')
    obtain ⟨hstored, rfl⟩ := (dumps_entry_eq_ok hentry).mp hline
    refine ⟨hstored, ?_⟩
    rw [writeToFile, hline] at hlines
    exact (fileLines_append_iff line_of_print (print_dict_ne_nil _) s.file).mp ⟨_, hlines⟩
  · rintro ⟨hstored, hwhole⟩
    have hline := (dumps_entry_eq_ok hentry).mpr ⟨hstored, rfl⟩
    refine ⟨entry, _, hentry, hline, ?_⟩
    rw [writeToFile, hline]
    exact fileLines_append line_of_print (print_dict_ne_nil _) hwhole

end Runtime

/-! ## A date in the client info -/

/-- A text in hexadecimal, in the place of a digest. -/
def hexText (s : PyStr) : PyStr :=
  s.flatMap fun c => [hexDigit (c.val / 0x100000), hexDigit (c.val / 0x10000 % 16),
    hexDigit (c.val / 0x1000 % 16), hexDigit (c.val / 0x100 % 16), hexDigit (c.val / 0x10 % 16),
    hexDigit (c.val % 16)]

/-- An interpreter for concrete runs with dates for objects, each of which is its text. Digests are
the texts themselves in hexadecimal, and a list is written as JSON where it stands for a text. -/
def dateRuntime : Runtime PyStr where
  maxDigits := 4300
  dumpsDepth := 990
  loadsDepth := 990
  digitsError := u "Exceeds the limit (4300 digits) for integer string conversion; " ++
    u "use sys.set_int_max_str_digits() to increase the limit"
  depthError := u "maximum recursion depth exceeded while encoding a JSON object"
  keyError _ := u "keys must be str, int, float, bool or None, not datetime"
  typeError _ := u "Object of type datetime is not JSON serializable"
  str o := .ok o
  sortOther _ := .error (u "'<' not supported between instances of 'datetime' and 'str'")
  toFloat := readFloat
  toFloat_text := readFloat_text
  truthyOf _ := .ok true
  containsOf _ _ := .error (u "argument of type 'datetime' is not iterable")
  itemOf _ _ := .error (u "'datetime' object is not subscriptable")
  equalsOf _ _ := .ok false
  lowerOf _ := .error (u "'datetime' object has no attribute 'lower'")
  hashOf _ := .ok ()
  sliceOf _ := .error (u "'datetime' object is not subscriptable")
  upperOf _ := .error (u "'datetime' object has no attribute 'upper'")
  decodeOf _ := none
  lower s := s.map fun c => if h : 65 ≤ c.val ∧ c.val ≤ 90 then ⟨c.val + 32, by omega⟩ else c
  repr v := .ok (Interp.print v)
  emit _ := .ok ()
  sha256 := hexText
  encodeError _ := u "'utf-8' codec can't encode: surrogates not allowed"
  hmac := hexText

/-- The time and the id of a call. -/
def noon : Stamp where
  timestamp := u "2025-01-01T12:00:00+00:00"
  uuid := u "00000000-0000-4000-8000-000000000000"
  timestamp_ascii c hc := Nat.lt_of_le_of_lt (printable_u (by decide) c hc).2 (by decide)
  uuid_ascii c hc := Nat.lt_of_le_of_lt (printable_u (by decide) c hc).2 (by decide)

/-- A call about a session, with this in the client info. -/
def connectArgs (info : List (PyKey PyStr × PyVal PyStr)) : LogArgs PyStr where
  eventType := .str (u "netconf")
  action := .str (u "connect")
  details := .str (u "session opened")
  clientInfo := .dict info

/-- A logger with an empty file. -/
def emptyLogger : TamperLogger PyStr := ⟨[], 1000, []⟩

/-- A run that returns, by its answer. -/
theorem exists_log_of_isOk {R : Runtime Obj} {stamp : Stamp} {args : LogArgs Obj}
    {s : TamperLogger Obj} (h : (R.log stamp args s).2.isOk = true) :
    ∃ s' id, R.log stamp args s = (s', .ok id) := by
  generalize R.log stamp args s = r at h
  obtain ⟨s', x⟩ := r
  cases x with
  | error e => simp [Except.isOk, Except.toBool] at h
  | ok id => exact ⟨s', id, rfl⟩

/-- A call with the address of the client has its entry in the file. -/
theorem recorded_iff_address :
    ∃ s' id, dateRuntime.log noon (connectArgs [field "client_ip" (.str (u "10.1.100.5"))])
        emptyLogger = (s', .ok id) ∧
      dateRuntime.Recorded noon (connectArgs [field "client_ip" (.str (u "10.1.100.5"))])
        emptyLogger.file s'.file := by
  have hok : (dateRuntime.log noon (connectArgs [field "client_ip" (.str (u "10.1.100.5"))])
      emptyLogger).2.isOk = true := by
    decide +kernel
  obtain ⟨s', id, h⟩ := exists_log_of_isOk hok
  refine ⟨s', id, h, (Runtime.recorded_iff h).mpr ⟨?_, by simp [WholeLines, emptyLogger]⟩⟩
  have hlevels := dateRuntime.levelled_fits
  have hroom {k : ℕ} (hk : k ≤ 990) : dateRuntime.Fits k .none :=
    ⟨dateRuntime.writable_of_scalar (by simp) (by simp) trivial,
      PyVal.under_scalar hk (by simp) (by simp)⟩
  have hstr (k : ℕ) (hk : k ≤ 990) (s : PyStr) : dateRuntime.Fits k (.str s) :=
    hlevels.str (hroom hk) trivial
  refine ⟨?_, fun _ => ?_, fun key _ _ v hv => ?_⟩
  · simp only [connectArgs, List.forall_mem_cons, List.not_mem_nil, false_imp_iff, implies_true,
      and_true]
    exact ⟨hstr 1 (by decide) _, hstr 1 (by decide) _, hstr 1 (by decide) _, hstr 1 (by decide) _,
      hroom (by decide), hroom (by decide)⟩
  · refine hlevels.dict (fun i hi => ?_) (List.nodup_singleton _) (hroom (by decide)) fun i hi => ?_
    · rw [List.mem_singleton.mp hi]
      exact ⟨"client_ip", rfl⟩
    · rw [List.mem_singleton.mp hi]
      exact hstr 2 (by decide) _
  · obtain rfl : PyVal.none = v := Except.ok.inj hv
    exact hroom (by decide)

/-- A call with the time of the session in its client info returns, and its entry is in memory but
not in the file. -/
theorem exists_log_not_recorded :
    ∃ s' id, dateRuntime.log noon (connectArgs [field "since" (.other (u "2025-01-01 11:59:00"))])
        emptyLogger = (s', .ok id) ∧
      ¬ dateRuntime.Recorded noon
        (connectArgs [field "since" (.other (u "2025-01-01 11:59:00"))]) emptyLogger.file
        s'.file := by
  have hok : (dateRuntime.log noon
      (connectArgs [field "since" (.other (u "2025-01-01 11:59:00"))]) emptyLogger).2.isOk =
        true := by
    decide +kernel
  obtain ⟨s', id, h⟩ := exists_log_of_isOk hok
  refine ⟨s', id, h, ?_⟩
  rintro ⟨entry, line, hentry, hline, -⟩
  obtain ⟨hstored, -⟩ := (Runtime.dumps_entry_eq_ok hentry).mp hline
  have hinfo := hstored.clientInfo rfl
  exact dateRuntime.levelled_fits.not_other
    (dateRuntime.levelled_fits.items hinfo _ List.mem_cons_self)

end ControlPlane.Secure
