import ControlPlane.Lib.Url
import ControlPlane.Secure.Broadcast
import ControlPlane.Secure.SetDelete

/-!
# Revoking a rule

`revoke` of `enforcement/ids_agent_proxy.py` puts the id of a rule into a URL as it is. The IDS agent
(`rulesDeleteHandler` of `ids-agent/main.go`) takes the last part of the decoded path, and puts it into
a URL as it is again; `do_DELETE` of `sam/role_api.py` takes the last part of the path that it gets,
which it does not decode. An id comes through exactly when it is written in paths as it stands
(`revokesExactly_iff`).
-/

namespace ControlPlane.Secure

open Percent Url SfOp

/-- A dot segment. -/
def isDot (s : List UInt8) : Bool := s = bytes "." ∨ s = bytes ".."

/-- The HTTP client of the backend. -/
structure HttpClient where
  /-- The target of the request to a URL, from its path on, if the client accepts the URL. -/
  target : List UInt8 → Option (List UInt8)
  /-- A path without dot segments is sent with its segments percent-encoded. The escapes that are in
  them stay. -/
  sends : ∀ url t, target url = some t →
    (∀ s ∈ (pathPart url).splitOn slash, isDot s = false) →
    ((t.takeWhile (· ≠ question)).splitOn slash).mapM unescape =
      some (((pathPart url).splitOn slash).map decode)
  /-- Dot segments are not sent. -/
  drops : ∀ url t, target url = some t → ∀ s ∈ (t.takeWhile (· ≠ question)).splitOn slash,
    s = [] ∨ ∃ s' ∈ (pathPart url).splitOn slash, isDot s' = false ∧ unescape s = some (decode s')

/-- The URL that `revoke` sends its request to, after the host of the IDS agent. -/
def revokeUrl (ruleId : String) : List UInt8 := bytes "/rules/" ++ bytes ruleId

/-- `rulesDeleteHandler`: the target of the request to the Secure Framework, if there is one. -/
def rulesDeleteHandler (path : List UInt8) : Option (List UInt8) :=
  let ruleID := lastSegment (trimSlash path)
  if ruleID = [] ∨ ruleID = bytes "rules" then none
  else requestUri (bytes "/api/rules/" ++ ruleID)

/-- `do_DELETE`: the id of the rule to delete, if the path has one. -/
def doDelete (path : List UInt8) : Option (List UInt8) :=
  if bytes "/api/rules/" <+: path ∧ path.count slash = 3 then some (lastSegment path) else none

/-- `str(data, 'iso-8859-1')`. -/
def latin1 (data : List UInt8) : String := String.ofList (data.map fun c => Char.ofNat c.toNat)

/-- The id that `_handle_delete_rule` is called with when a rule is revoked, if it is called. -/
def deletedId (client : HttpClient) (ruleId : String) : Option String := do
  let target ← client.target (revokeUrl ruleId)
  let path ← muxPath (bytes "/rules/") target
  let target ← rulesDeleteHandler path
  let path ← requestPath target
  let deleted ← doDelete path
  return latin1 deleted

/-- `revoke`, as far as it goes on in the Secure Framework. -/
def revoke (cfg : SfConfig) (client : HttpClient) (ruleId : String) : SfM (Option RestReply) := do
  match deletedId client ruleId with
  | none => return none
  | some deleted => return some (← handleDeleteRule cfg deleted)

/-! ## What a revocation is to do -/

/-- The calls delete the path wherever a leaf has a client when it is looked up, and nothing else. -/
def DeletesOn (leafIps : List String) (path : String) (s : List SfEvent) : Prop :=
  List.Forall₂ (fun leafIp p => ∀ client : Client, Pool.getClientByKey p .admin leafIp = some client →
      ∃ answer, ⟨gnmiDelete client path, answer⟩ ∈ s) leafIps (poolsOf s) ∧
    ∀ leaf path' answer, ⟨gnmiDelete leaf path', answer⟩ ∈ s → path' = path

/-- Revoking a rule deletes it, and no other one. -/
def RevokesExactly (cfg : SfConfig) (client : HttpClient) (ruleId : String) : Prop :=
  ∀ h r, Prog.Runs (revoke cfg client ruleId ()) h r → DeletesOn cfg.leafIps (rulePath ruleId) h

/-- A byte that may stand in a segment of a path, and stands for itself there. -/
def isPlain (c : UInt8) : Bool := validByte c ∧ c ≠ sign ∧ c ≠ slash

/-- A byte that does not keep the IDS agent from sending what it stands in as one segment. -/
def isSendable (c : UInt8) : Bool :=
  !isCtl c ∧ c ≠ sign ∧ c ≠ slash ∧ c ≠ question ∧ c ≠ hash

/-- The client accepts the URL of the id, which is not too long, is no dot segment and is not
`rules`; and either all its bytes stand for themselves in a path, or the id is itself the escape of
bytes that do not all. -/
def Revocable (client : HttpClient) (ruleId : String) : Prop :=
  (client.target (revokeUrl ruleId)).isSome = true ∧ (bytes ruleId).length ≤ 65507 ∧
  ruleId ≠ "" ∧ ruleId ≠ "." ∧ ruleId ≠ ".." ∧ ruleId ≠ "rules" ∧
  ((∀ c ∈ bytes ruleId, isPlain c = true) ∨
    ∃ data, bytes ruleId = escape keepPath data ∧ (∀ c ∈ data, isSendable c = true) ∧
      ∃ c ∈ data, validByte c = false)

/-! ## The calls of a delete -/

/-- The calls for one more leaf: a look at the pool, and the delete on the client it has. -/
theorem DeletesOn.cons {leafIp path : String} {leafIps : List String} {p : Pool}
    {t s : List SfEvent} (hs : DeletesOn leafIps path s)
    (ht : ∀ e ∈ t, e.op ≠ pool ∧ ∀ leaf path', e.op = gnmiDelete leaf path' → path' = path)
    (hclient : ∀ client, p.getClientByKey .admin leafIp = some client →
      ∃ answer, ⟨gnmiDelete client path, answer⟩ ∈ t) :
    DeletesOn (leafIp :: leafIps) path (⟨pool, p⟩ :: (t ++ s)) := by
  have hpools : poolsOf (⟨pool, p⟩ :: (t ++ s)) = p :: poolsOf s := by
    have hnil := poolsOf_append_of_none [] fun e he => (ht e he).1
    rw [List.nil_append] at hnil
    unfold poolsOf at hnil ⊢
    simp [hnil]
  obtain ⟨hleaves, hpath⟩ := hs
  constructor
  · rw [hpools]
    refine .cons (fun client hc => ?_) (hleaves.imp fun leaf p' h client hc => ?_)
    · obtain ⟨answer, he⟩ := hclient client hc
      exact ⟨answer, List.mem_cons_of_mem _ (List.mem_append_left _ he)⟩
    · obtain ⟨answer, he⟩ := h client hc
      exact ⟨answer, List.mem_cons_of_mem _ (List.mem_append_right _ he)⟩
  · intro leaf path' answer he
    rcases List.mem_cons.mp he with he | he
    · cases he
    · rcases List.mem_append.mp he with he | he
      · exact (ht _ he).2 leaf path' rfl
      · exact hpath leaf path' answer he

/-- The loop of a REST delete. -/
theorem sat_restDeleteOn_deletesOn {R : List SfEvent → SfEvent → Prop} {path : String}
    (leafIps : List String) (h : List SfEvent) :
    Act.Sat R (fun _ _ => True) h () (restDeleteOn path leafIps) fun h' _ _ =>
      ∃ s, h' = h ++ s ∧ DeletesOn leafIps path s := by
  induction leafIps generalizing h with
  | nil => exact ⟨[], by simp, .nil, fun _ _ _ he => absurd he List.not_mem_nil⟩
  | cons leafIp rest ih =>
    unfold restDeleteOn
    simp only [Act.sat_bind, Act.sat_perform]
    refine ⟨trivial, fun p _ => ?_⟩
    cases hp : p.getClientByKey .admin leafIp with
    | none =>
      refine (ih _).mono fun h' r _ hr => ?_
      obtain ⟨s, rfl, hs⟩ := hr
      refine ⟨⟨pool, p⟩ :: ([] ++ s), by simp, hs.cons (by simp) fun client hc => ?_⟩
      rw [hp] at hc
      cases hc
    | some client =>
      simp only [Act.sat_bind, Act.sat_perform]
      refine ⟨trivial, fun answer _ => (ih _).mono fun h' r _ hr => ?_⟩
      obtain ⟨s, rfl, hs⟩ := hr
      have hdone : ∃ s', h ++ [⟨pool, p⟩] ++ [⟨gnmiDelete client path, answer⟩] ++ s = h ++ s' ∧
          DeletesOn (leafIp :: rest) path s' := by
        refine ⟨⟨pool, p⟩ :: ([⟨gnmiDelete client path, answer⟩] ++ s), by simp,
          hs.cons (fun e he => ?_) fun client' hc => ?_⟩
        · obtain rfl := List.mem_singleton.mp he
          constructor
          · intro hpool
            cases hpool
          · intro leaf path' hdelete
            cases hdelete
            rfl
        · rw [hp] at hc
          obtain rfl := Option.some_inj.mp hc
          exact ⟨answer, List.mem_singleton_self _⟩
      cases r with
      | error e => exact hdone
      | ok found =>
        cases answer with
        | ok _ => exact hdone
        | error e => exact hdone

/-- A REST delete as a whole. -/
theorem deletesOn_of_handleDeleteRule {cfg : SfConfig} {ruleId : String} {s : List SfEvent}
    {r : Except Exc RestReply × Unit} (hrun : Prog.Runs (handleDeleteRule cfg ruleId ()) s r) :
    DeletesOn cfg.leafIps (rulePath ruleId) s := by
  have hsat : Act.Sat (fun _ _ => True) (fun _ _ => True) [] () (handleDeleteRule cfg ruleId)
      fun h _ _ => DeletesOn cfg.leafIps (rulePath ruleId) h := by
    unfold handleDeleteRule
    rw [Act.sat_bind]
    refine (sat_restDeleteOn_deletesOn cfg.leafIps []).mono fun h r _ hr => ?_
    obtain ⟨s', rfl, hs⟩ := hr
    cases r with
    | error e => exact hs
    | ok found =>
      simp only
      split_ifs
      · exact hs
      · simp only [Act.sat_bind, Act.sat_orRaise, Act.sat_perform]
        refine ⟨trivial, fun logged _ => ?_⟩
        have hlog : DeletesOn cfg.leafIps (rulePath ruleId) (h ++ [⟨tamperLog _, logged⟩]) := by
          obtain ⟨hleaves, hpath⟩ := hs
          refine ⟨?_, fun leaf path' answer he => hpath leaf path' answer (by simpa using he)⟩
          rw [poolsOf_append_of_none _ (by simp)]
          refine hleaves.imp fun leaf p h client hc => ?_
          obtain ⟨answer, he⟩ := h client hc
          exact ⟨answer, List.mem_append_left _ he⟩
        cases logged with
        | ok _ => exact hlog
        | error e => exact hlog
  exact hrun.post hsat (Prog.relied_true _ _)

/-- The runs of a revocation are those of the delete that it leads to. -/
theorem runs_revoke {cfg : SfConfig} {client : HttpClient} {ruleId deleted : String}
    (h : deletedId client ruleId = some deleted) {s : List SfEvent}
    {r : Except Exc (Option RestReply) × Unit}
    (hrun : Prog.Runs (revoke cfg client ruleId ()) s r) :
    ∃ r', Prog.Runs (handleDeleteRule cfg deleted ()) s r' := by
  unfold revoke at hrun
  rw [h] at hrun
  obtain ⟨h₁, h₂, ⟨r', u⟩, rfl, h1, h2⟩ := Prog.runs_bind.mp hrun
  cases r' with
  | ok reply =>
    cases h2
    rw [List.append_nil]
    exact ⟨_, h1⟩
  | error e =>
    cases h2
    rw [List.append_nil]
    exact ⟨_, h1⟩

/-- A revocation is exact exactly when the id comes through. -/
theorem revokesExactly_iff_deletedId {cfg : SfConfig} {client : HttpClient} {ruleId : String}
    (hleaves : cfg.leaves ≠ []) :
    RevokesExactly cfg client ruleId ↔ deletedId client ruleId = some ruleId := by
  constructor
  · intro hexact
    obtain ⟨leaf, more, hcons⟩ : ∃ leaf more, cfg.leafIps = leaf :: more := by
      obtain ⟨l, more, hl⟩ := List.exists_cons_of_ne_nil hleaves
      exact ⟨l.2, more.map Prod.snd, by unfold SfConfig.leafIps; rw [hl]; rfl⟩
    obtain ⟨hrun, hans⟩ := Prog.runs_const (sunny none) (revoke cfg client ruleId ())
    obtain ⟨hall, -⟩ := hexact _ _ hrun
    rw [hcons] at hall
    cases hdeleted : deletedId client ruleId with
    | none =>
      -- nothing is called
      have hnil : (Prog.run (fun _ => sunny none) [] (revoke cfg client ruleId ())).1 = [] := by
        unfold revoke
        rw [hdeleted]
        rfl
      rw [hnil] at hall
      cases hall
    | some deleted =>
      obtain ⟨r', hrun'⟩ := runs_revoke hdeleted hrun
      obtain ⟨-, hpath⟩ := deletesOn_of_handleDeleteRule hrun'
      generalize (Prog.run (fun _ => sunny none) [] (revoke cfg client ruleId ())).1 = s at *
      cases hpools : poolsOf s with
      | nil =>
        rw [hpools] at hall
        cases hall
      | cons p pools =>
        rw [hpools] at hall
        obtain ⟨hfirst, -⟩ := List.forall₂_cons.mp hall
        have hp : (⟨pool, p⟩ : SfEvent) ∈ s := by
          have hmem : p ∈ poolsOf s := by rw [hpools]; exact List.mem_cons_self
          obtain ⟨e, he, hpool⟩ := List.mem_filterMap.mp hmem
          split at hpool
          · obtain rfl := Option.some_inj.mp hpool
            exact he
          · cases hpool
        have hfull : p = .full := hans _ hp
        subst hfull
        obtain ⟨answer, he⟩ := hfirst ⟨leaf, 0⟩ rfl
        rw [rulePath_injective (hpath _ _ _ he)]
  · intro hdeleted h r hrun
    obtain ⟨r', hrun'⟩ := runs_revoke hdeleted hrun
    exact deletesOn_of_handleDeleteRule hrun'

/-! ## The texts -/

section Bytes

set_option maxRecDepth 4096

theorem utf8EncodeChar_ofNat : ∀ c : UInt8, c < 128 →
    String.utf8EncodeChar (Char.ofNat c.toNat) = [c] :=
  Utf8.forall_byte (by decide)

end Bytes

theorem bytes_latin1_append (s t : List UInt8) :
    bytes (latin1 (s ++ t)) = bytes (latin1 s) ++ bytes (latin1 t) := by
  unfold bytes latin1
  rw [String.toList_ofList, String.toList_ofList, String.toList_ofList, List.map_append,
    Utf8.encode_append]

/-- ASCII bytes are the text that they are decoded to. -/
theorem bytes_latin1 {s : List UInt8} (h : ∀ c ∈ s, c < 128) : bytes (latin1 s) = s := by
  induction s with
  | nil => rfl
  | cons c s ih =>
    obtain ⟨hc, hs⟩ := List.forall_mem_cons.mp h
    have hfirst : bytes (latin1 [c]) = [c] := by
      unfold bytes latin1
      rw [String.toList_ofList, List.map_singleton, Utf8.encode_cons, Utf8.encode_nil,
        utf8EncodeChar_ofNat c hc, List.append_nil]
    rw [← List.singleton_append, bytes_latin1_append, hfirst, ih hs]

theorem bytes_injective : Function.Injective bytes := by
  intro s t h
  exact String.toList_injective (Utf8.encode_injective h)

theorem latin1_bytes {s : String} (h : ∀ c ∈ bytes s, c < 128) : latin1 (bytes s) = s :=
  bytes_injective (bytes_latin1 h)

/-- A text that may stand in a path is ASCII. -/
theorem lt_of_validEncoded {s : List UInt8} (h : validEncoded s = true) : ∀ c ∈ s, c < 128 :=
  fun c hc => (of_validByte c (List.all_eq_true.mp h c hc)).2.2.2.2

/-! ## The way to the IDS agent -/

section

variable {client : HttpClient} {ruleId : String} {t p segment tail : List UInt8}

/-- The parts of the path of the URL, for an id that begins with a segment. -/
theorem splitOn_pathPart_revokeUrl (hid : bytes ruleId = segment ++ tail)
    (htail : tail = [] ∨ ∃ more, tail = question :: more) (hslash : slash ∉ segment)
    (hquestion : question ∉ segment) (hhash : hash ∉ segment) :
    (pathPart (revokeUrl ruleId)).splitOn slash = [[], bytes "rules", segment] := by
  have hpart : pathPart tail = [] := by
    rcases htail with rfl | ⟨more, rfl⟩ <;> rfl
  have hpath : pathPart (revokeUrl ruleId) = slash :: (bytes "rules" ++ slash :: segment) := by
    unfold revokeUrl
    rw [hid, pathPart_append (by decide) (by decide), pathPart_append hquestion hhash, hpart,
      List.append_nil]
    rfl
  rw [hpath]
  show ([] ++ slash :: (bytes "rules" ++ slash :: segment)).splitOn slash = _
  rw [List.splitOn_append_cons_self, List.splitOn_append_cons_self,
    List.splitOn_eq_singleton hslash, List.splitOn_eq_singleton (by decide : slash ∉ bytes "rules")]
  rfl

/-- The path that the IDS agent reads. -/
theorem of_muxPath (h : muxPath (bytes "/rules/") t = some p) :
    ∃ parts, ((t.takeWhile (· ≠ question)).splitOn slash).mapM unescape = some parts ∧
      p = [slash].intercalate parts := by
  unfold muxPath at h
  obtain ⟨path, hpath, h⟩ := Option.bind_eq_some_iff.mp h
  split_ifs at h
  obtain rfl := Option.some_inj.mp h
  have hjoin : [slash].intercalate ((t.takeWhile (· ≠ question)).splitOn slash) =
      t.takeWhile (· ≠ question) := List.intercalate_splitOn slash
  rw [← hjoin, unescape_intercalate (by decide) (by decide) (List.splitOn_ne_nil _ _)] at hpath
  obtain ⟨parts, hparts, rfl⟩ := Option.map_eq_some_iff.mp hpath
  exact ⟨parts, hparts, rfl⟩

/-- A segment that is no dot segment arrives decoded. -/
theorem muxPath_of_segment (htarget : client.target (revokeUrl ruleId) = some t)
    (hparts : (pathPart (revokeUrl ruleId)).splitOn slash = [[], bytes "rules", segment])
    (hdot : isDot segment = false) (h : muxPath (bytes "/rules/") t = some p) :
    p = bytes "/rules/" ++ decode segment := by
  have hsends := client.sends _ t htarget (by rw [hparts]; simpa using ⟨by decide, by decide, hdot⟩)
  obtain ⟨parts, hread, rfl⟩ := of_muxPath h
  rw [hread, hparts] at hsends
  obtain rfl := Option.some_inj.mp hsends
  have hrules : decode (bytes "rules") = bytes "rules" := by decide
  show [slash].intercalate [[], decode (bytes "rules"), decode segment] = _
  rw [hrules]
  have hbegins : bytes "/rules/" = [slash] ++ (bytes "rules" ++ [slash]) := by decide
  simp [List.intercalate, hbegins]

/-- With a dot segment, no id arrives. -/
theorem muxPath_of_dot (htarget : client.target (revokeUrl ruleId) = some t)
    (hparts : (pathPart (revokeUrl ruleId)).splitOn slash = [[], bytes "rules", segment])
    (hdot : isDot segment = true) (h : muxPath (bytes "/rules/") t = some p) :
    lastSegment (trimSlash p) = [] ∨ lastSegment (trimSlash p) = bytes "rules" := by
  have hdrops := client.drops _ t htarget
  rw [hparts] at hdrops
  obtain ⟨parts, hread, rfl⟩ := of_muxPath h
  have hall : ∀ part ∈ parts, part = [] ∨ part = bytes "rules" := by
    intro part hpart
    obtain ⟨s, hs, hdecode⟩ := exists_of_mem_mapM hread hpart
    obtain rfl | ⟨s', hs', hno, hs'decode⟩ := hdrops s hs
    · exact .inl (Option.some_inj.mp hdecode).symm
    · rw [hdecode] at hs'decode
      have hpart := Option.some_inj.mp hs'decode
      simp only [List.mem_cons, List.not_mem_nil, or_false] at hs'
      rcases hs' with rfl | rfl | rfl
      · exact .inl hpart
      · exact .inr hpart
      · rw [hdot] at hno
        cases hno
  have hne : parts ≠ [] := by
    rintro rfl
    have hlength := (forall₂_of_mapM hread).length_eq
    exact List.splitOn_ne_nil slash _ (List.eq_nil_of_length_eq_zero hlength)
  have hmem := lastSegment_trimSlash_mem ([slash].intercalate parts)
  rw [List.splitOn_intercalate slash (fun part hpart => ?_) hne] at hmem
  · exact hall _ hmem
  · rcases hall part hpart with rfl | rfl <;> decide

end

/-! ## The way to the Secure Framework -/

/-- The id that the Secure Framework deletes is what the IDS agent writes for the id that it has read,
and a part of the query that comes after it. -/
theorem of_doDelete {p t w r : List UInt8} (hforward : rulesDeleteHandler p = some t)
    (hpath : requestPath t = some w) (hdelete : doDelete w = some r) :
    ∃ path query, r = escapedPath (pathPart (lastSegment (trimSlash p))) path ++ query ∧
      unescape (pathPart (lastSegment (trimSlash p))) = some path ∧
      ((pathPart (lastSegment (trimSlash p))).length = (lastSegment (trimSlash p)).length →
        query = []) ∧
      (query = [] ∨ ∃ more, query = question :: more) ∧ slash ∉ r ∧ r.length ≤ 65507 ∧
      (lastSegment (trimSlash p)).any isCtl = false ∧
      lastSegment (trimSlash p) ≠ [] ∧ lastSegment (trimSlash p) ≠ bytes "rules" := by
  unfold rulesDeleteHandler at hforward
  simp only at hforward
  split_ifs at hforward with hid
  rw [not_or] at hid
  generalize lastSegment (trimSlash p) = ruleID at *
  obtain ⟨whole, query, rfl, hread, hquery, hquestion, hctl⟩ := requestUri_spec hforward
  rw [pathPart_append (by decide) (by decide)] at hread hquery hpath
  rw [unescape_append_of_not_mem (by decide)] at hread
  obtain ⟨path, hunescape, rfl⟩ := Option.map_eq_some_iff.mp hread
  rw [escapedPath_append (List.all_eq_true.mp (by decide))] at hpath
  -- The path goes on until white space comes, which may be in the query only.
  have hspace : ∀ c ∈ bytes "/api/rules/" ++ escapedPath (pathPart ruleID) path,
      isSpace c = false := by
    intro c hc
    rcases List.mem_append.mp hc with hc | hc
    · exact List.all_eq_true.mp (by decide : (bytes "/api/rules/").all
        (fun c => isSpace c = false) = true) c hc |> of_decide_eq_true
    · exact (of_validByte c (List.all_eq_true.mp validEncoded_escapedPath c hc)).1
  have hw := eq_of_requestPath hspace (by simp [bytes]) hpath
  subst hw
  have hlength : (bytes "/api/rules/" ++ escapedPath (pathPart ruleID) path ++ query).length + 18 ≤
      65536 := by
    unfold requestPath at hpath
    split_ifs at hpath with hlong
    have hseven : (bytes "DELETE ").length = 7 ∧ (bytes " HTTP/1.1\r\n").length = 11 := by decide
    omega
  unfold doDelete at hdelete
  split_ifs at hdelete with hcount
  have hslash : slash ∉ escapedPath (pathPart ruleID) path ++ query.takeWhile (fun c => !isSpace c) := by
    have hthree : (bytes "/api/rules/").count slash = 3 := by decide
    have hcount := hcount.2
    rw [List.append_assoc, List.count_append, hthree] at hcount
    exact List.count_eq_zero.mp (by omega)
  have hr : r = escapedPath (pathPart ruleID) path ++ query.takeWhile (fun c => !isSpace c) := by
    have hbegins : bytes "/api/rules/" = bytes "/api/rules" ++ [slash] := by decide
    rw [hbegins, List.append_assoc, List.append_assoc, List.singleton_append,
      lastSegment_append _ hslash] at hdelete
    exact (Option.some_inj.mp hdelete).symm
  subst hr
  refine ⟨path, _, rfl, hunescape, ?_, ?_, hslash, ?_, ?_, hid.1, hid.2⟩
  · intro hlen
    rw [hquery (by rw [List.length_append, List.length_append, hlen])]
    rfl
  · rcases hquestion with rfl | ⟨more, rfl⟩
    · exact .inl rfl
    · exact .inr ⟨_, List.takeWhile_cons_of_pos (by decide)⟩
  · have hle := (List.takeWhile_prefix (l := query) fun c => !isSpace c).length_le
    have heleven : (bytes "/api/rules/").length = 11 := by decide
    simp only [List.length_append, heleven] at hlength ⊢
    omega
  · rw [List.any_append, Bool.or_eq_false_iff] at hctl
    exact hctl.2

/-! ## Which ids come through -/

/-- An id that comes through is what the IDS agent writes for it. -/
theorem written_of_deletedId {client : HttpClient} {ruleId : String}
    (h : deletedId client ruleId = some ruleId) :
    (client.target (revokeUrl ruleId)).isSome = true ∧ (bytes ruleId).length ≤ 65507 ∧
      isDot (bytes ruleId) = false ∧
      ∃ ruleID, bytes ruleId = escapedPath ruleID ruleID ∧ sign ∉ ruleID ∧ slash ∉ ruleID ∧
        pathPart ruleID = ruleID ∧ ruleID.any isCtl = false ∧ ruleID ≠ [] ∧
        ruleID ≠ bytes "rules" := by
  unfold deletedId at h
  obtain ⟨t, htarget, h⟩ := Option.bind_eq_some_iff.mp h
  obtain ⟨p, hmux, h⟩ := Option.bind_eq_some_iff.mp h
  obtain ⟨t', hforward, h⟩ := Option.bind_eq_some_iff.mp h
  obtain ⟨w, hpath, h⟩ := Option.bind_eq_some_iff.mp h
  obtain ⟨r, hdelete, h⟩ := Option.bind_eq_some_iff.mp h
  have hid : latin1 r = ruleId := Option.some_inj.mp h
  obtain ⟨path, query, rfl, hread, hquery, hquestion, hslash, hlength, hctl, hne, hrules⟩ :=
    of_doDelete hforward hpath hdelete
  set ruleID := lastSegment (trimSlash p) with hruleID
  set segment := escapedPath (pathPart ruleID) path with hsegment
  -- The id begins with the path that was written.
  have hbytes : bytes ruleId = segment ++ bytes (latin1 query) := by
    rw [← hid, bytes_latin1_append, bytes_latin1 (lt_of_validEncoded validEncoded_escapedPath)]
  have htail : bytes (latin1 query) = [] ∨ ∃ more, bytes (latin1 query) = question :: more := by
    rcases hquestion with rfl | ⟨more, rfl⟩
    · exact .inl rfl
    · rw [← List.singleton_append, bytes_latin1_append]
      exact .inr ⟨bytes (latin1 more), rfl⟩
  have hno : ∀ c ∈ segment, c ≠ question ∧ c ≠ hash := by
    intro c hc
    have hvalid := of_validByte c (List.all_eq_true.mp validEncoded_escapedPath c hc)
    exact ⟨hvalid.2.2.1, hvalid.2.2.2.1⟩
  have hparts := splitOn_pathPart_revokeUrl hbytes htail
    (fun hmem => hslash (List.mem_append_left _ hmem)) (fun hmem => (hno _ hmem).1 rfl)
    (fun hmem => (hno _ hmem).2 rfl)
  have hdot : isDot segment = false := by
    by_contra hdot
    rcases muxPath_of_dot htarget hparts (by simpa using hdot) hmux with hnil | heq
    · exact hne hnil
    · exact hrules heq
  have hp := muxPath_of_segment htarget hparts hdot hmux
  have hdecode : decode segment = path := decode_escapedPath hread
  rw [hdecode] at hp
  -- What is written reads as something that is no longer than what was read before, so that nothing
  -- was lost on the way.
  have hpath_ne : path ≠ [] := by
    rintro rfl
    rw [List.append_nil] at hp
    exact hrules (hruleID.trans (by rw [hp]; decide))
  obtain ⟨u, hu, hsuffix⟩ : ∃ u, u <+: path ∧ ruleID <:+ u := by
    rw [hruleID, hp]
    have hbegins : bytes "/rules/" = bytes "/rules" ++ [slash] := by decide
    rw [hbegins, List.append_assoc, List.singleton_append]
    exact lastSegment_trimSlash_append _ hpath_ne
  have hread_le := length_unescape hread
  have hpart : pathPart ruleID <+: ruleID := List.takeWhile_prefix _
  have hpart_le := hpart.length_le
  have hu_le := hu.length_le
  have hsuffix_le := hsuffix.length_le
  have hwhole : pathPart ruleID = ruleID := hpart.eq_of_length (by omega)
  have hsign : sign ∉ ruleID := by
    rw [← hwhole]
    exact hread_le.2 (by omega)
  have hpath_eq : path = ruleID := by
    rw [hwhole, unescape_of_not_mem hsign] at hread
    exact (Option.some_inj.mp hread).symm
  have hquery_nil : query = [] := hquery (by rw [hwhole])
  subst hquery_nil
  rw [List.append_nil] at hlength
  have hid_eq : bytes ruleId = segment := by
    rw [hbytes]
    exact List.append_nil segment
  refine ⟨?_, ?_, ?_, ruleID, ?_, hsign, not_mem_lastSegment _, hwhole, hctl, hne, hrules⟩
  · rw [htarget]
    rfl
  · rw [hid_eq]
    exact hlength
  · rw [hid_eq]
    exact hdot
  · rw [hid_eq, hsegment, hwhole, hpath_eq]

theorem revocable_of_deletedId {client : HttpClient} {ruleId : String}
    (h : deletedId client ruleId = some ruleId) : Revocable client ruleId := by
  obtain ⟨htarget, hlength, hdot, ruleID, hid, hsign, hslash, hpart, hctl, hne, hrules⟩ :=
    written_of_deletedId h
  have hdecode : decode (bytes ruleId) = ruleID := by
    rw [hid]
    exact decode_escapedPath (unescape_of_not_mem hsign)
  have hends : ∀ c ∈ ruleID, c ≠ question ∧ c ≠ hash := by
    intro c hc
    rw [← hpart] at hc
    exact of_mem_pathPart hc
  refine ⟨htarget, hlength, ?_, ?_, ?_, ?_, ?_⟩
  · rintro rfl
    exact hne hdecode.symm
  · rintro rfl
    exact absurd hdot (by decide)
  · rintro rfl
    exact absurd hdot (by decide)
  · rintro rfl
    exact hrules (hdecode.symm.trans (by decide))
  · by_cases hvalid : validEncoded ruleID = true
    · left
      rw [hid]
      unfold escapedPath
      rw [if_pos hvalid]
      intro c hc
      refine decide_eq_true ⟨List.all_eq_true.mp hvalid c hc, ?_, ?_⟩
      · rintro rfl
        exact hsign hc
      · rintro rfl
        exact hslash hc
    · right
      refine ⟨ruleID, ?_, fun c hc => ?_, ?_⟩
      · rw [hid]
        unfold escapedPath
        rw [if_neg hvalid]
      · have hc_ctl : isCtl c = false := by
          rw [List.any_eq_false] at hctl
          simpa using hctl c hc
        refine decide_eq_true ⟨by rw [hc_ctl]; rfl, ?_, ?_, (hends c hc).1, (hends c hc).2⟩
        · rintro rfl
          exact hsign hc
        · rintro rfl
          exact hslash hc
      · have hbad := Bool.eq_false_iff.mpr hvalid
        unfold validEncoded at hbad
        rw [List.all_eq_false] at hbad
        obtain ⟨c, hc, hcbad⟩ := hbad
        exact ⟨c, hc, Bool.eq_false_iff.mpr hcbad⟩

/-! ## That they do -/

theorem isClean_of_splitOn {path s s' : List UInt8} (h : path.splitOn slash = [[], s, s'])
    (hne : s ≠ []) (hs : isDot s = false) (hs' : isDot s' = false) : isClean path = true := by
  unfold isDot at hs hs'
  rw [decide_eq_false_iff_not, not_or] at hs hs'
  unfold isClean
  rw [h]
  simp [hs, hs', hne]

/-- A dot segment reads as itself. -/
theorem unescape_of_isDot {s : List UInt8} (h : isDot s = true) : unescape s = some s := by
  rcases of_decide_eq_true h with rfl | rfl <;> decide

section

variable {client : HttpClient} {ruleId : String} {t ruleID : List UInt8}

/-- What is written for an id that is no dot segment is not one. -/
theorem isDot_of_escapedPath (hdot : isDot (escapedPath ruleID ruleID) = false) :
    isDot ruleID = false := by
  by_contra h
  have hvalid : validEncoded ruleID = true := by
    rcases of_decide_eq_true (Bool.not_eq_false _ ▸ h) with rfl | rfl <;> decide
  unfold escapedPath at hdot
  rw [if_pos hvalid] at hdot
  exact h hdot

/-- The IDS agent reads an id that is sent as one segment. -/
theorem muxPath_eq (hparts : ((t.takeWhile (· ≠ question)).splitOn slash).mapM unescape =
      some [[], bytes "rules", ruleID]) (hslash : slash ∉ ruleID) (hdot : isDot ruleID = false) :
    muxPath (bytes "/rules/") t = some (bytes "/rules/" ++ ruleID) := by
  have hpath : unescape (t.takeWhile (· ≠ question)) = some (bytes "/rules/" ++ ruleID) := by
    have hjoin : [slash].intercalate ((t.takeWhile (· ≠ question)).splitOn slash) =
        t.takeWhile (· ≠ question) := List.intercalate_splitOn slash
    rw [← hjoin, unescape_intercalate (by decide) (by decide) (List.splitOn_ne_nil _ _), hparts]
    have hbegins : bytes "/rules/" = [slash] ++ (bytes "rules" ++ [slash]) := by decide
    simp [List.intercalate, hbegins]
  have hclean : isClean (escapedPath (t.takeWhile (· ≠ question)) (bytes "/rules/" ++ ruleID)) =
      true := by
    unfold escapedPath
    split_ifs
    · -- The target stands as it is. Its parts read as those of the path.
      obtain ⟨s₀, rest₀, h0, hall₀, hparts⟩ :=
        List.forall₂_cons_right_iff.mp (forall₂_of_mapM hparts)
      obtain ⟨s₁, rest₁, h1, hall₁, rfl⟩ := List.forall₂_cons_right_iff.mp hall₀
      obtain ⟨s₂, rest₂, h2, hall₂, rfl⟩ := List.forall₂_cons_right_iff.mp hall₁
      obtain rfl := List.forall₂_nil_right_iff.mp hall₂
      obtain rfl := eq_nil_of_unescape h0
      refine isClean_of_splitOn hparts ?_ ?_ ?_
      · rintro rfl
        exact absurd h1 (by decide)
      · by_contra h
        have hsame := unescape_of_isDot (Bool.not_eq_false _ ▸ h)
        rw [h1, Option.some_inj] at hsame
        rw [← hsame] at h
        exact h (by decide)
      · by_contra h
        have hsame := unescape_of_isDot (Bool.not_eq_false _ ▸ h)
        rw [h2, Option.some_inj] at hsame
        rw [hsame] at hdot
        exact h hdot
    · rw [escape_append (List.all_eq_true.mp (by decide))]
      have hno : slash ∉ escape keepPath ruleID := by
        intro hmem
        obtain ⟨-, hmem⟩ | hsign | hdigit := of_mem_escape hmem
        · exact hslash hmem
        · exact absurd hsign (by decide)
        · exact absurd hdigit (by decide)
      have hsplit : (bytes "/rules/" ++ escape keepPath ruleID).splitOn slash =
          [[], bytes "rules", escape keepPath ruleID] := by
        have hbegins : bytes "/rules/" = [] ++ slash :: (bytes "rules" ++ [slash]) := by decide
        rw [hbegins, List.append_assoc, List.cons_append, List.append_assoc, List.singleton_append,
          List.splitOn_append_cons_self, List.splitOn_append_cons_self,
          List.splitOn_eq_singleton hno,
          List.splitOn_eq_singleton (by decide : slash ∉ bytes "rules")]
        rfl
      refine isClean_of_splitOn hsplit (by decide) (by decide) ?_
      · by_contra h
        have hdot' := unescape_of_isDot (Bool.not_eq_false _ ▸ h)
        rw [unescape_escape (by decide)] at hdot'
        rw [Option.some_inj.mp hdot'] at hdot
        exact h hdot
  unfold muxPath
  simp only [hpath]
  show (if _ then some (bytes "/rules/" ++ ruleID) else none) = _
  rw [if_pos ⟨hclean, List.prefix_append _ _⟩]

/-- The Secure Framework deletes the id that the IDS agent writes in one segment. -/
theorem doDelete_eq {segment : List UInt8} (h : slash ∉ segment) :
    doDelete (bytes "/api/rules/" ++ segment) = some segment := by
  have hthree : (bytes "/api/rules/").count slash = 3 := by decide
  have hbegins : bytes "/api/rules/" = bytes "/api/rules" ++ [slash] := by decide
  unfold doDelete
  rw [if_pos ⟨List.prefix_append _ _, by
    rw [List.count_append, hthree, List.count_eq_zero.mpr h]⟩, hbegins, List.append_assoc,
    List.singleton_append, lastSegment_append _ h]

/-- What the IDS agent writes for an id that it can read and write in one piece is deleted. -/
theorem deletedId_of_written (htarget : client.target (revokeUrl ruleId) = some t)
    (hlength : (bytes ruleId).length ≤ 65507) (hdot : isDot (bytes ruleId) = false)
    (hid : bytes ruleId = escapedPath ruleID ruleID) (hsend : ∀ c ∈ ruleID, isSendable c = true)
    (hne : ruleID ≠ []) (hrules : ruleID ≠ bytes "rules") :
    deletedId client ruleId = some ruleId := by
  have hcs : ∀ c ∈ ruleID, isCtl c = false ∧ c ≠ sign ∧ c ≠ slash ∧ c ≠ question ∧ c ≠ hash := by
    intro c hc
    simpa [isSendable] using hsend c hc
  have hslash : slash ∉ ruleID := fun h => (hcs _ h).2.2.1 rfl
  have hsign : sign ∉ ruleID := fun h => (hcs _ h).2.1 rfl
  have hvalid : validEncoded (bytes ruleId) = true := by
    rw [hid]
    exact validEncoded_escapedPath
  have hbytes : ∀ c ∈ bytes ruleId, isSpace c = false ∧ c ≠ question ∧ c ≠ hash := by
    intro c hc
    have hc := of_validByte c (List.all_eq_true.mp hvalid c hc)
    exact ⟨hc.1, hc.2.2.1, hc.2.2.2.1⟩
  have hidslash : slash ∉ bytes ruleId := by
    rw [hid]
    unfold escapedPath
    split_ifs
    · exact hslash
    · intro hmem
      obtain ⟨-, hmem⟩ | hsign | hdigit := of_mem_escape hmem
      · exact hslash hmem
      · exact absurd hsign (by decide)
      · exact absurd hdigit (by decide)
  -- the IDS agent
  have hparts := splitOn_pathPart_revokeUrl (List.append_nil (bytes ruleId)).symm (.inl rfl) hidslash
    (fun h => (hbytes _ h).2.1 rfl) (fun h => (hbytes _ h).2.2 rfl)
  have hdecode : decode (bytes ruleId) = ruleID := by
    rw [hid]
    exact decode_escapedPath (unescape_of_not_mem hsign)
  have hsends := client.sends _ t htarget (by rw [hparts]; simpa using ⟨by decide, by decide, hdot⟩)
  rw [hparts] at hsends
  have hrulesDecode : decode (bytes "rules") = bytes "rules" := by decide
  have hmux : muxPath (bytes "/rules/") t = some (bytes "/rules/" ++ ruleID) := by
    refine muxPath_eq ?_ hslash (isDot_of_escapedPath (hid ▸ hdot))
    rw [hsends, List.map_cons, List.map_cons, List.map_cons, hdecode, hrulesDecode]
    rfl
  have hlast : lastSegment (trimSlash (bytes "/rules/" ++ ruleID)) = ruleID := by
    have hbegins : bytes "/rules/" = bytes "/rules" ++ [slash] := by decide
    rw [hbegins, List.append_assoc, List.singleton_append]
    exact lastSegment_trimSlash_of_not_mem _ hslash hne
  -- the Secure Framework
  have hforward : rulesDeleteHandler (bytes "/rules/" ++ ruleID) =
      some (bytes "/api/rules/" ++ bytes ruleId) := by
    unfold rulesDeleteHandler
    simp only [hlast]
    rw [if_neg (not_or.mpr ⟨hne, hrules⟩), requestUri_of_path, hid,
      escapedPath_append (List.all_eq_true.mp (by decide))]
    · rw [List.any_append, Bool.or_eq_false_iff]
      refine ⟨by decide, List.any_eq_false.mpr fun c hc => ?_⟩
      rw [(hcs c hc).1]
      simp
    · exact fun h => (List.mem_append.mp h).elim (by decide) hsign
    · exact fun h => (List.mem_append.mp h).elim (by decide) fun h => (hcs _ h).2.2.2.1 rfl
    · exact fun h => (List.mem_append.mp h).elim (by decide) fun h => (hcs _ h).2.2.2.2 rfl
  have hpath : requestPath (bytes "/api/rules/" ++ bytes ruleId) =
      some (bytes "/api/rules/" ++ bytes ruleId) := by
    refine requestPath_eq (fun c hc => ?_) (by simp [bytes]) ?_
    · rcases List.mem_append.mp hc with hc | hc
      · exact of_decide_eq_true (List.all_eq_true.mp (by decide : (bytes "/api/rules/").all
          (fun c => isSpace c = false) = true) c hc)
      · exact (hbytes c hc).1
    · have heleven : (bytes "/api/rules/").length = 11 := by decide
      rw [List.length_append, heleven]
      omega
  unfold deletedId
  rw [htarget]
  simp only [Option.bind_eq_bind, Option.bind_some, hmux, hforward, hpath, doDelete_eq hidslash]
  exact congrArg some (latin1_bytes (lt_of_validEncoded hvalid))

end

/-- An id comes through exactly when it is written in paths as it stands, or is the escape of what is
not. -/
theorem deletedId_eq_some_iff {client : HttpClient} {ruleId : String} :
    deletedId client ruleId = some ruleId ↔ Revocable client ruleId := by
  constructor
  · exact revocable_of_deletedId
  · rintro ⟨htarget, hlength, hne, hdot, hdots, hrules, hform⟩
    obtain ⟨t, ht⟩ := Option.isSome_iff_exists.mp htarget
    have hno : isDot (bytes ruleId) = false := by
      refine decide_eq_false ?_
      rintro (h | h)
      · exact hdot (bytes_injective h)
      · exact hdots (bytes_injective h)
    rcases hform with hplain | ⟨data, hid, hsend, c, hc, hbad⟩
    · have hid : bytes ruleId = escapedPath (bytes ruleId) (bytes ruleId) := by
        have hvalid : validEncoded (bytes ruleId) = true :=
          List.all_eq_true.mpr fun c hc => (of_decide_eq_true (hplain c hc)).1
        unfold escapedPath
        rw [if_pos hvalid]
      refine deletedId_of_written ht hlength hno hid (fun c hc => ?_)
        (fun h => hne (bytes_injective h)) (fun h => hrules (bytes_injective h))
      obtain ⟨hvalid, hsign, hslash⟩ := of_decide_eq_true (hplain c hc)
      obtain ⟨-, hctl, hquestion, hhash, -⟩ := of_validByte c hvalid
      exact decide_eq_true ⟨by rw [hctl]; rfl, hsign, hslash, hquestion, hhash⟩
    · have hwritten : bytes ruleId = escapedPath data data := by
        have hinvalid : validEncoded data = false :=
          List.all_eq_false.mpr ⟨c, hc, by rw [hbad]; simp⟩
        unfold escapedPath
        rw [if_neg (by rw [hinvalid]; simp), hid]
      refine deletedId_of_written ht hlength hno hwritten hsend (List.ne_nil_of_mem hc) ?_
      rintro rfl
      rw [List.all_eq_true.mp (by decide : (bytes "rules").all validByte = true) c hc] at hbad
      cases hbad

/-! ## The condition -/

/-- A client for URLs that are sent as they stand, which refuses all others. -/
def plainClient : HttpClient where
  target url :=
    if pathPart url = url ∧ ∀ s ∈ url.splitOn slash, sign ∉ s ∧ isDot s = false then some url
    else none
  sends url t ht hdot := by
    split_ifs at ht with hplain
    obtain rfl := Option.some_inj.mp ht
    have hquestion : question ∉ url := by
      intro hmem
      rw [← hplain.1] at hmem
      exact (of_mem_pathPart hmem).1 rfl
    rw [(takeWhile_ne_of_not_mem hquestion).1, hplain.1]
    refine mapM_of_forall fun s hs => ?_
    have hread := unescape_of_not_mem (hplain.2 s hs).1
    rw [hread, decode_of_unescape hread]
  drops url t ht s hs := by
    split_ifs at ht with hplain
    obtain rfl := Option.some_inj.mp ht
    have hquestion : question ∉ url := by
      intro hmem
      rw [← hplain.1] at hmem
      exact (of_mem_pathPart hmem).1 rfl
    rw [(takeWhile_ne_of_not_mem hquestion).1] at hs
    have hread := unescape_of_not_mem (hplain.2 s hs).1
    rw [hplain.1]
    exact .inr ⟨s, hs, (hplain.2 s hs).2, by rw [hread, decode_of_unescape hread]⟩

end ControlPlane.Secure
