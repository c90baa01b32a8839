import ControlPlane.Secure.Sunny

/-!
# The role policies and the sessions that read them

The model of `RolePolicyEngine` in `sam/role_policy.py`, whose policies are shared by all threads:
each of its methods holds the lock of the engine. `create_session` reads the policy of its role
twice, once for the list of roles and once for the default, and lets go of the lock in between.

`update_policy` puts a default that is not in the list right; `import_policies` does not. So a
session has a role of its own list when every imported policy is `Sound`, and no write falls between
its two reads (`Undisturbed`): `session_role_mem` shows it for every interleaving whose steps all
meet that.
-/

namespace ControlPlane.Secure

open Text SfOp

/-! ## The engine -/

/-- `_policies`. -/
abbrev Policies := OnapRole → Option RolePolicy

/-- `OnapRole(x)`, with `none` for the `ValueError`. -/
def OnapRole.ofJson : Json → Option OnapRole
  | .str s => [admin, operator, agent].find? fun role => role.value == s
  | _ => none

/-- `SonicRole(x)`, with `none` for the `ValueError`. -/
def SonicRole.ofJson : Json → Option SonicRole
  | .str s => [admin, operator].find? fun role => role.value == s
  | _ => none

/-- `DEFAULT_POLICIES`. -/
def DEFAULT_POLICIES : Policies
  | .admin => some ⟨[.admin, .operator], .admin⟩
  | .operator => some ⟨[.operator], .operator⟩
  | .agent => some ⟨[.admin], .admin⟩

/-- `RolePolicy.from_dict`, with `none` when it raises. -/
def RolePolicy.fromDict (data : Json) : Option RolePolicy :=
  match data with
  | .obj fields => do
    let _ ← (Json.lookup "onap_role" fields).bind OnapRole.ofJson
    let items ← (Json.lookup "allowed_sonic_roles" fields).bind fun v => v.iter.toOption
    let allowed ← items.mapM SonicRole.ofJson
    let default ← (Json.lookup "default_sonic_role" fields).bind SonicRole.ofJson
    return ⟨allowed, default⟩
  | _ => none

/-- `update_policy`. -/
def updatePolicy (role : OnapRole) (allowed : Option (List SonicRole)) (default : Option SonicRole)
    (p : Policies) : Policies :=
  let current := p role
  let allowed := allowed.getD ((current.map RolePolicy.allowedSonicRoles).getD [.operator])
  let default := default.getD ((current.map RolePolicy.defaultSonicRole).getD .operator)
  let default := if default ∈ allowed then default else allowed.headD .operator
  Function.update p role (some ⟨allowed, default⟩)

/-- The loop of `import_policies`, which keeps what it has stored when an item raises. -/
def importItems : List (String × Json) → Policies → Policies
  | [], p => p
  | (roleStr, data) :: rest, p =>
    match OnapRole.ofJson (.str roleStr), RolePolicy.fromDict data with
    | some role, some policy => importItems rest (Function.update p role (some policy))
    | _, _ => p

/-- `import_policies`. -/
def importPolicies (py : Py) (jsonStr : String) (p : Policies) : Policies :=
  match py.loads jsonStr with
  | some (.obj items) => importItems items p
  | _ => p

/-- A call that changes the policies. -/
inductive PolicyWrite where
  /-- `update_policy`. -/
  | update (role : OnapRole) (allowed : Option (List SonicRole)) (default : Option SonicRole)
  /-- `import_policies`. -/
  | importing (jsonStr : String)
  /-- `reset_to_defaults`. -/
  | reset

/-- The policies after the call. -/
def PolicyWrite.apply (py : Py) : PolicyWrite → Policies → Policies
  | update role allowed default, p => updatePolicy role allowed default p
  | importing jsonStr, p => importPolicies py jsonStr p
  | reset, _ => DEFAULT_POLICIES

/-! ## Sound policies -/

/-- The default is one of the list, or the list is empty, for which a session has a list of its
own. -/
def RolePolicy.Sound (p : RolePolicy) : Prop :=
  p.allowedSonicRoles = [] ∨ p.defaultSonicRole ∈ p.allowedSonicRoles

/-- Every policy is sound. -/
def Policies.Sound (p : Policies) : Prop := ∀ role policy, p role = some policy → policy.Sound

/-- Every policy that an import reads is sound; the other calls see to it themselves. -/
def PolicyWrite.Sound (py : Py) : PolicyWrite → Prop
  | importing jsonStr => ∀ items, py.loads jsonStr = some (.obj items) →
      ∀ item ∈ items, ∀ policy, RolePolicy.fromDict item.2 = some policy → policy.Sound
  | update _ _ _ | reset => True

/-- Storing a sound policy keeps the policies sound. -/
theorem Policies.Sound.update {p : Policies} (hp : p.Sound) (role : OnapRole) {policy : RolePolicy}
    (h : policy.Sound) : Policies.Sound (Function.update p role (some policy)) := by
  intro role' policy' h'
  rcases eq_or_ne role' role with rfl | hne
  · rw [Function.update_self, Option.some.injEq] at h'
    exact h' ▸ h
  · rw [Function.update_of_ne hne] at h'
    exact hp role' policy' h'

/-- The policies at the start are sound. -/
theorem sound_default : DEFAULT_POLICIES.Sound := by
  intro role policy h
  unfold RolePolicy.Sound
  cases role
  all_goals
    obtain rfl := Option.some.inj h
    simp

/-- `update_policy` stores a sound policy, whatever it is given. -/
theorem sound_updatePolicy {p : Policies} (hp : p.Sound) (role : OnapRole)
    (allowed : Option (List SonicRole)) (default : Option SonicRole) :
    (updatePolicy role allowed default p).Sound := by
  refine hp.update role ?_
  unfold RolePolicy.Sound
  simp only
  generalize allowed.getD _ = roles
  split_ifs with hin
  · exact .inr hin
  · cases roles with
    | nil => exact .inl rfl
    | cons x rest => exact .inr (by simp)

/-- An import of sound policies stores sound policies, however far it gets. -/
theorem sound_importItems {items : List (String × Json)} {p : Policies} (hp : p.Sound)
    (h : ∀ item ∈ items, ∀ policy, RolePolicy.fromDict item.2 = some policy → policy.Sound) :
    (importItems items p).Sound := by
  induction items generalizing p with
  | nil => exact hp
  | cons item rest ih =>
    obtain ⟨roleStr, data⟩ := item
    unfold importItems
    split
    · next role policy _ hdata =>
      have hpolicy : policy.Sound := h (roleStr, data) (by simp) policy hdata
      exact ih (hp.update role hpolicy) fun item hitem => h item (by simp [hitem])
    · exact hp

/-- A sound call keeps the policies sound. -/
theorem PolicyWrite.Sound.apply {py : Py} {w : PolicyWrite} (hw : w.Sound py) {p : Policies}
    (hp : p.Sound) : (w.apply py p).Sound := by
  cases w with
  | update role allowed default => exact sound_updatePolicy hp role allowed default
  | reset => exact sound_default
  | importing jsonStr =>
    change (importPolicies py jsonStr p).Sound
    unfold importPolicies
    split
    · next items hload => exact sound_importItems hp (hw items hload)
    · exact hp

/-! ## Threads over one engine -/

/-- The calls of the threads: those of the framework, and the writes of the policies. -/
abbrev EngineEvent := Event (SfOp ⊕ PolicyWrite) (Sum.elim SfAns fun _ => Unit)

/-- The policies; and for each thread between the two reads of a `create_session`, their role. -/
structure EngineState (Tid : Type) where
  /-- `_policies`. -/
  policies : Policies
  /-- The role that a thread has read the list of, and not yet the default. -/
  reading : Tid → Option OnapRole

/-- The state of a new engine. -/
def EngineState.start {Tid : Type} : EngineState Tid := ⟨DEFAULT_POLICIES, fun _ => none⟩

/-- The memory of the threads. Each read and each write holds the lock of the engine. -/
def engineMemory (py : Py) (Tid : Type) [DecidableEq Tid] :
    Memory Tid (SfOp ⊕ PolicyWrite) (Sum.elim SfAns fun _ => Unit) (EngineState Tid) where
  answers _ s
    | ⟨.inl (getPolicy role), a⟩ => a = s.policies role
    | _ => True
  next t s
    | ⟨.inl (getPolicy role), _⟩ => { s with
        reading := Function.update s.reading t (if s.reading t = none then some role else none) }
    | ⟨.inr w, _⟩ => { s with policies := w.apply py s.policies }
    | _ => s

/-- What a thread does: it creates a session, or makes some writes. -/
inductive EngineThread where
  | session (clientAddr : String × ℕ) (cert : Option Cert)
  | writes (calls : List PolicyWrite)

/-- The program that makes some writes. -/
def writing : List PolicyWrite →
    Prog (SfOp ⊕ PolicyWrite) (Sum.elim SfAns fun _ => Unit) Unit
  | [] => .ret ()
  | w :: rest => .call (.inr w) fun _ => writing rest

/-- The program of a thread. -/
def engineThread (cfg : SfConfig) :
    EngineThread → Prog (SfOp ⊕ PolicyWrite) (Sum.elim SfAns fun _ => Unit) Unit
  | .session clientAddr cert => (createSession cfg clientAddr cert ()).inl.bind fun _ => .ret ()
  | .writes calls => writing calls

/-- A step of a run in which sessions get a role of their list: a write is sound, and leaves the
policy alone that a `create_session` is about to read again. -/
def Undisturbed (py : Py) {Tid : Type} (_ : Tid) (s : EngineState Tid) : EngineEvent → Prop
  | ⟨.inr w, _⟩ => w.Sound py ∧
      ∀ t role, s.reading t = some role → w.apply py s.policies role = s.policies role
  | _ => True

/-! ## What a session relies on -/

/-- The policies that a thread has read. -/
def policyReads (h : List SfEvent) : List (OnapRole × Option RolePolicy) :=
  h.filterMap fun
    | ⟨getPolicy role, a⟩ => some (role, a)
    | _ => none

/-- What a session relies on: the policies that it reads are sound, and the second read of a role
finds what the first one found. -/
def policyRely (h : List SfEvent) : SfEvent → Prop
  | ⟨getPolicy role, a⟩ => (∀ policy, a = some policy → policy.Sound) ∧
      ∀ a₀, policyReads h = [(role, a₀)] → a = a₀
  | _ => True

/-- What a session guarantees: it reads at most two policies, of one role, and it is created with a
role of its list. -/
def policyGuarantee (h : List SfEvent) : SfOp → Prop
  | getPolicy role => policyReads h = [] ∨ ∃ a, policyReads h = [(role, a)]
  | setLocalSession (some ctx) => ctx.sonicRole ∈ ctx.allowedSonicRoles
  | _ => True

/-- A session that reads the same sound policy twice has a role of its list. -/
theorem sat_createSession_role (cfg : SfConfig) (clientAddr : String × ℕ) (cert : Option Cert) :
    Act.Sat policyRely policyGuarantee [] () (createSession cfg clientAddr cert) fun _ _ _ =>
      True := by
  unfold createSession
  simp only [Act.sat_bind, Act.sat_perform]
  refine ⟨trivial, fun bypassed _ => ?_⟩
  cases extractOnapRoleFromCert cfg.py bypassed cert with
  | none => trivial
  | some role =>
    simp only [Act.sat_bind, Act.sat_perform]
    refine ⟨.inl rfl, fun first hfirst => ⟨.inr ⟨first, rfl⟩, fun second hsecond => ?_⟩⟩
    obtain rfl : second = first := hsecond.2 first rfl
    cases second with
    | none => exact ⟨List.mem_singleton_self _, fun _ _ => trivial⟩
    | some policy =>
      have hsound := hfirst.1 policy rfl
      simp only [Option.map_some, Option.getD_some]
      split_ifs with hempty
      · exact ⟨List.mem_singleton_self _, fun _ _ => trivial⟩
      · have hmem : policy.defaultSonicRole ∈ policy.allowedSonicRoles :=
          hsound.resolve_left hempty
        exact ⟨hmem, fun _ _ => trivial⟩

/-! ## Every interleaving -/

section

variable {cfg : SfConfig} {Tid : Type}

/-- The events of a session in the history of its thread. -/
def sessionEvents (h : List EngineEvent) : List SfEvent :=
  h.filterMap fun
    | ⟨.inl op, a⟩ => some ⟨op, a⟩
    | _ => none

/-- The events of a thread that creates a session are those of the session. -/
theorem sessionEvents_map_inl (h : List SfEvent) :
    sessionEvents (h.map (Event.inl : SfEvent → EngineEvent)) = h := by
  induction h with
  | nil => rfl
  | cons e h ih =>
    unfold sessionEvents at ih ⊢
    rw [List.map_cons, List.filterMap_cons]
    exact congrArg (e :: ·) ih

/-- What a thread relies on. -/
def engineRely (_ : Tid) (h : List EngineEvent) : EngineEvent → Prop
  | ⟨.inl op, a⟩ => policyRely (sessionEvents h) ⟨op, a⟩
  | _ => True

/-- What a thread guarantees. -/
def engineGuarantee (_ : Tid) (h : List EngineEvent) : SfOp ⊕ PolicyWrite → Prop
  | .inl op => policyGuarantee (sessionEvents h) op
  | .inr _ => True

/-- Every thread keeps its guarantee. -/
theorem sat_engineThread (t : Tid) (thread : EngineThread) :
    Prog.Sat (engineRely t) (engineGuarantee t) (fun _ _ => True) [] (engineThread cfg thread) := by
  cases thread with
  | session clientAddr cert =>
    refine Prog.sat_bind.mpr ?_
    have hsat := sat_createSession_role cfg clientAddr cert
    refine (Prog.sat_inl (h := [])).mpr ?_
    have hR : (fun h (e : SfEvent) => engineRely t (h.map Event.inl) e.inl) = policyRely := by
      funext h e
      exact congrArg (policyRely · e) (sessionEvents_map_inl h)
    have hG : (fun (h : List SfEvent) op => engineGuarantee t (h.map Event.inl) (.inl op)) =
        policyGuarantee := by
      funext h op
      exact congrArg (policyGuarantee · op) (sessionEvents_map_inl h)
    rw [hR, hG]
    exact hsat
  | writes calls =>
    unfold engineThread
    generalize ([] : List EngineEvent) = h
    induction calls generalizing h with
    | nil => trivial
    | cons w rest ih => exact ⟨trivial, fun _ _ => ih _⟩

/-- The policies that a thread has read, after one more event. -/
theorem policyReads_append (h : List EngineEvent) (e : EngineEvent) :
    policyReads (sessionEvents (h ++ [e])) = policyReads (sessionEvents h) ++
      match e with
      | ⟨.inl (getPolicy role), a⟩ => [(role, a)]
      | _ => [] := by
  obtain ⟨op, a⟩ := e
  unfold policyReads sessionEvents
  rw [List.filterMap_append, List.filterMap_append]
  cases op with
  | inr w => rfl
  | inl op =>
    cases op
    all_goals rfl

/-- The policies are sound; and what a thread between its two reads has read is still there. -/
structure EngineInv (hist : Tid → List EngineEvent) (s : EngineState Tid) : Prop where
  /-- Every policy is sound. -/
  sound : s.policies.Sound
  /-- A thread has read nothing, or one policy that is still there, or both. -/
  reads : ∀ t, (policyReads (sessionEvents (hist t)) = [] ∧ s.reading t = none) ∨
    (∃ role, policyReads (sessionEvents (hist t)) = [(role, s.policies role)] ∧
      s.reading t = some role) ∨ 2 ≤ (policyReads (sessionEvents (hist t))).length

variable [DecidableEq Tid]

/-- Every step that is undisturbed gives its thread what it relies on, and keeps the invariant. -/
theorem engineInv_step {hist : Tid → List EngineEvent} {s : EngineState Tid} {t : Tid}
    {e : EngineEvent} (hJ : EngineInv hist s) (hG : engineGuarantee t (hist t) e.op)
    (hm : ((engineMemory cfg.py Tid).restrict (Undisturbed cfg.py)).answers t s e) :
    engineRely t (hist t) e ∧ EngineInv (Function.update hist t (hist t ++ [e]))
      (((engineMemory cfg.py Tid).restrict (Undisturbed cfg.py)).next t s e) := by
  obtain ⟨op, a⟩ := e
  obtain ⟨hanswer, hcalm⟩ := hm
  have hother : ∀ t', t' ≠ t → Function.update hist t (hist t ++ [⟨op, a⟩]) t' = hist t' :=
    fun t' ht => Function.update_of_ne ht _ _
  cases op with
  | inr w =>
    -- A write is sound, and changes no policy that a thread is about to read again.
    obtain ⟨hw, hkeep⟩ := hcalm
    refine ⟨trivial, hw.apply hJ.sound, fun t' => ?_⟩
    have hsame : policyReads (sessionEvents (Function.update hist t (hist t ++ [⟨.inr w, a⟩]) t')) =
        policyReads (sessionEvents (hist t')) := by
      rcases eq_or_ne t' t with rfl | ht
      · rw [Function.update_self, policyReads_append, List.append_nil]
      · rw [hother t' ht]
    rw [hsame]
    obtain hnone | ⟨role, hone, hreading⟩ | htwo := hJ.reads t'
    · exact .inl hnone
    · refine .inr (.inl ⟨role, ?_, hreading⟩)
      rw [hone]
      exact congrArg (fun p => [(role, p)]) (hkeep t' role hreading).symm
    · exact .inr (.inr htwo)
  | inl op =>
    cases op
    case getPolicy role =>
      -- The first read of a thread, or the second, of the same role.
      obtain rfl : a = s.policies role := hanswer
      have hguard : policyReads (sessionEvents (hist t)) = [] ∨
          ∃ a, policyReads (sessionEvents (hist t)) = [(role, a)] := hG
      have hR : engineRely t (hist t) ⟨.inl (getPolicy role), s.policies role⟩ := by
        refine ⟨fun policy hpolicy => hJ.sound role policy hpolicy, fun a₀ hone => ?_⟩
        obtain ⟨hnone, -⟩ | ⟨role', hone', -⟩ | htwo := hJ.reads t
        · simp [hnone] at hone
        · rw [hone, List.cons.injEq, Prod.mk.injEq] at hone'
          obtain ⟨⟨rfl, rfl⟩, -⟩ := hone'
          rfl
        · simp [hone] at htwo
      refine ⟨hR, hJ.sound, fun t' => ?_⟩
      change (_ ∧ Function.update s.reading t _ t' = none) ∨
        (∃ role', _ ∧ Function.update s.reading t _ t' = some role') ∨ _
      rcases eq_or_ne t' t with rfl | ht
      · rw [Function.update_self, Function.update_self, policyReads_append]
        obtain hnone | ⟨a₀, hone⟩ := hguard
        · have hreading : s.reading t' = none := by
            obtain ⟨-, hr⟩ | ⟨role', hone', -⟩ | htwo := hJ.reads t'
            · exact hr
            · simp [hnone] at hone'
            · simp [hnone] at htwo
          rw [hnone, if_pos hreading]
          exact .inr (.inl ⟨role, rfl, rfl⟩)
        · rw [hone]
          exact .inr (.inr le_rfl)
      · rw [hother t' ht, Function.update_of_ne ht]
        exact hJ.reads t'
    all_goals
      refine ⟨trivial, hJ.sound, fun t' => ?_⟩
      rcases eq_or_ne t' t with rfl | ht
      · rw [Function.update_self, policyReads_append, List.append_nil]
        exact hJ.reads t'
      · rw [hother t' ht]
        exact hJ.reads t'

/-- Wherever an undisturbed run creates a session, its role is one of its list. -/
theorem session_role_mem {threads : Tid → EngineThread} {l : List (Tid × EngineEvent)}
    {q : Tid → Prog (SfOp ⊕ PolicyWrite) (Sum.elim SfAns fun _ => Unit) Unit}
    (hi : Interleaving (fun t => engineThread cfg (threads t)) l q)
    (hv : (engineMemory cfg.py Tid).Valid .start l)
    (hcalm : (engineMemory cfg.py Tid).Always (Undisturbed cfg.py) .start l) {t : Tid}
    {ctx : SessionContext} (hmem : (t, ⟨.inl (setLocalSession (some ctx)), ()⟩) ∈ l) :
    ctx.sonicRole ∈ ctx.allowedSonicRoles := by
  have hJ₀ : EngineInv (fun _ : Tid => []) .start := ⟨sound_default, fun _ => .inl ⟨rfl, rfl⟩⟩
  obtain ⟨l₁, l₂, rfl⟩ := List.append_of_mem hmem
  exact (Interleaving.guarantee (fun t => sat_engineThread t (threads t)) hJ₀
    (fun _ _ _ _ hJ hG hm => engineInv_step hJ hG hm) hi
    ((engineMemory cfg.py Tid).valid_restrict.mpr ⟨hv, hcalm⟩)).1

end

/-! ## An import, and a session after it -/

/-- A document that lets the ADMIN role have the operator role alone, and gives it the admin one. -/
def adminDocument : Json :=
  .obj [("admin", .obj [("onap_role", .str "admin"),
    ("allowed_sonic_roles", .arr [.str "operator"]), ("default_sonic_role", .str "admin")])]

/-- The framework, where every import reads that document. -/
def importingSf : SfConfig :=
  { plainSf with py := .ascii (fun s => s) fun _ => some adminDocument }

/-- What a session of the engine is answered, where the security is on. -/
def engineOracle (s : EngineState Bool) :
    (op : SfOp ⊕ PolicyWrite) → Sum.elim SfAns (fun _ => Unit) op
  | .inl (getPolicy role) => s.policies role
  | .inl op => sunny none op
  | .inr _ => ()

/-- One thread creates a session without a certificate, and the other one makes some writes. -/
def twoThreads (calls : List PolicyWrite) : Bool → EngineThread
  | true => .session ("10.0.0.1", 50000) none
  | false => .writes calls

/-- The events of the session, in a given state. -/
def sessionRun (s : EngineState Bool) : List (Bool × EngineEvent) :=
  ((engineMemory importingSf.py Bool).exec engineOracle true s
    (engineThread importingSf (twoThreads [] true))).1

/-- The answers of the oracle are those of the memory. -/
theorem answers_engineOracle (s : EngineState Bool) (op : SfOp ⊕ PolicyWrite) :
    (engineMemory importingSf.py Bool).answers true s ⟨op, engineOracle s op⟩ := by
  cases op with
  | inr w => trivial
  | inl op =>
    cases op
    case getPolicy role => rfl
    all_goals trivial

/-- The role that an event creates a session with, and its list. -/
def createdRole : Bool × EngineEvent → Option (SonicRole × List SonicRole)
  | (_, ⟨.inl (setLocalSession (some ctx)), _⟩) => some (ctx.sonicRole, ctx.allowedSonicRoles)
  | _ => none

/-- An event that creates a session. -/
theorem exists_created {l : List (Bool × EngineEvent)} {role : SonicRole} {roles : List SonicRole}
    (h : l.findSome? createdRole = some (role, roles)) :
    ∃ t ctx, (t, ⟨.inl (setLocalSession (some ctx)), ()⟩) ∈ l ∧ ctx.sonicRole = role ∧
      ctx.allowedSonicRoles = roles := by
  obtain ⟨x, hx, hrole⟩ := List.exists_of_findSome?_eq_some h
  unfold createdRole at hrole
  split at hrole
  · next t ctx a =>
    rw [Option.some.injEq, Prod.mk.injEq] at hrole
    exact ⟨t, ctx, hx, hrole.1, hrole.2⟩
  · simp at hrole

/-- A session of the default policies has a role of its list. -/
theorem session_role_mem_default :
    ∃ t ctx, (t, ⟨.inl (setLocalSession (some ctx)), ()⟩) ∈ sessionRun .start ∧
      ctx.sonicRole ∈ ctx.allowedSonicRoles := by
  have hcreated : (sessionRun .start).findSome? createdRole =
      some (.admin, [.admin, .operator]) := by
    decide +kernel
  obtain ⟨t, ctx, hmem, -, -⟩ := exists_created hcreated
  have hinl : (sessionRun .start).all (fun x => x.2.op.isLeft) = true := by decide +kernel
  have hi := interleaving_exec (engineMemory importingSf.py Bool) engineOracle true .start
    fun t => engineThread importingSf (twoThreads [] t)
  refine ⟨t, ctx, hmem, session_role_mem hi
    ((engineMemory importingSf.py Bool).valid_exec answers_engineOracle .start _)
    (Memory.always_of_forall _ fun x hx s => ?_) hmem⟩
  have hleft := List.all_eq_true.mp hinl x hx
  obtain ⟨t', op, a⟩ := x
  cases op with
  | inl op => trivial
  | inr w => simp at hleft

/-- After an import whose default is not in its list, a session has a role outside its list. -/
theorem exists_session_role_not_mem :
    ¬ ∀ (cfg : SfConfig) (threads : Bool → EngineThread) (l : List (Bool × EngineEvent))
      (q : Bool → Prog (SfOp ⊕ PolicyWrite) (Sum.elim SfAns fun _ => Unit) Unit) (t : Bool)
      (ctx : SessionContext), Interleaving (fun t => engineThread cfg (threads t)) l q →
      (engineMemory cfg.py Bool).Valid .start l →
      (t, ⟨.inl (setLocalSession (some ctx)), ()⟩) ∈ l →
      ctx.sonicRole ∈ ctx.allowedSonicRoles := by
  intro hall
  let w : PolicyWrite := .importing ""
  let s : EngineState Bool := ⟨w.apply importingSf.py DEFAULT_POLICIES, fun _ => none⟩
  have hcreated : (sessionRun s).findSome? createdRole = some (.admin, [.operator]) := by
    decide +kernel
  obtain ⟨t, ctx, hmem, hrole, hroles⟩ := exists_created hcreated
  have hrest := interleaving_exec (engineMemory importingSf.py Bool) engineOracle true s
    (Function.update (fun t => engineThread importingSf (twoThreads [w] t)) false (.ret ()))
  rw [Function.update_of_ne (by decide)] at hrest
  have hi := Interleaving.cons (p := fun t => engineThread importingSf (twoThreads [w] t))
    (e := (⟨.inr w, ()⟩ : EngineEvent)) (k := fun _ => .ret ()) rfl hrest
  have hin := hall importingSf (twoThreads [w]) ((false, ⟨.inr w, ()⟩) :: sessionRun s) _ t ctx hi
    ⟨trivial, (engineMemory importingSf.py Bool).valid_exec answers_engineOracle s _⟩
    (List.mem_cons_of_mem _ hmem)
  rw [hrole, hroles] at hin
  simp at hin

end ControlPlane.Secure
