import ControlPlane.Secure.Complete

/-!
# Deleting an ACL set

The rules that come from an ACL set have the ids `table-sequence`, one for each entry; the delete of the
set deletes the rule whose id is the name of the set, which none of them has. The main result,
`gone_iff`, says that a set that was merged and deleted leaves its rules behind unless it has no
entries.
-/

namespace ControlPlane.Secure

open Text SfOp

/-! ## The rules on the leaves -/

/-- The rules of each leaf, by their ids. -/
abbrev Leaves : Type := String → String → Option (List (String × Json))

/-- What a call makes of the rules. -/
def Leaves.step (s : Leaves) : SfEvent → Leaves
  | ⟨gnmiUpdate client path payload, .ok _⟩ => fun leaf ruleId =>
      if client.host = leaf ∧ path = rulePath ruleId then some payload else s leaf ruleId
  | ⟨gnmiDelete client path, .ok _⟩ => fun leaf ruleId =>
      if client.host = leaf ∧ path = rulePath ruleId then none else s leaf ruleId
  | _ => s

/-- The rules after the calls of a history. -/
def Leaves.after (s : Leaves) (h : List SfEvent) : Leaves := h.foldl Leaves.step s

/-- What every call keeps is kept by a history. -/
theorem Leaves.after_eq {leaf ruleId : String} {h : List SfEvent}
    (hkeep : ∀ e ∈ h, ∀ s : Leaves, s.step e leaf ruleId = s leaf ruleId) (s : Leaves) :
    s.after h leaf ruleId = s leaf ruleId := by
  induction h generalizing s with
  | nil => rfl
  | cons e h ih =>
    have hrest := ih (fun e' he' => hkeep e' (List.mem_cons_of_mem e he')) (s.step e)
    exact hrest.trans (hkeep e (by simp) s)

/-- Rules have their paths from their ids. -/
theorem rulePath_injective {a b : String} (h : rulePath a = rulePath b) : a = b := by
  unfold rulePath at h
  rw [String.append_left_inj, String.append_right_inj] at h
  exact h

/-- The id of an entry is not the name of its set. -/
theorem ne_of_entryData {py : Py} {table : String} {entry : Xml} {data : RuleData}
    (hd : entryData py table entry = .ok data) : table ≠ data.ruleId := by
  rw [(ruleId_of_entryData hd).1]
  intro heq
  have hlen := congrArg String.length heq
  have hdash : "-".length = 1 := rfl
  simp only [String.length_append] at hlen
  omega

/-- The payload of a rule that comes from a set. -/
def FromSet (py : Py) (role : OnapRole) (table : String) (entries : List Xml) (ruleId : String)
    (payload : List (String × Json)) : Prop :=
  ∃ entry ∈ entries, ∃ data, entryData py table entry = .ok data ∧ data.ruleId = ruleId ∧
    payload = clean (pushedData (some role) data.ruleId data).items

/-- No rule that comes from a set is on a leaf. -/
def Gone (py : Py) (role : OnapRole) (table : String) (entries : List Xml) (s : Leaves) : Prop :=
  ∀ leaf ruleId payload, s leaf ruleId = some payload → ¬ FromSet py role table entries ruleId payload

/-! ## Merge and delete -/

section

variable {cfg : SfConfig} {client : Client} {ctx : SessionContext} {rpc : Xml} {h : List SfEvent}
  {table : String} {entries : List Xml} {r : Except Exc Reply}

/-- What is handled in a merge is the update of an entry that could be read. -/
theorem mem_handled_openconfig {py : Py} {role : OnapRole} {effect : Effect}
    (hmem : effect ∈ (Form.openconfig table entries).handled py role) :
    ∃ entry ∈ entries, ∃ data, entryData py table entry = .ok data ∧
      effect = pushEffect role data := by
  obtain ⟨entry, hentry, heff⟩ := List.mem_filterMap.mp hmem
  -- The entries are handled under `merge`, whatever their own operations are.
  unfold entryEffect at heff
  rw [if_neg (by simp)] at heff
  cases hd : entryData py table entry with
  | error e => simp [hd, Except.toOption] at heff
  | ok data =>
    rw [hd] at heff
    exact ⟨entry, hentry, data, hd, (Option.some.inj heff).symm⟩

/-- Every update of a merge comes from the set. -/
theorem fromSet_of_update
    (hrun : SessionRuns ctx (handleEditConfig cfg (some client) rpc) h r)
    (hform : formOf rpc = .openconfig table entries) {c : Client} {path : String}
    {payload : List (String × Json)} {a : Except Exc Unit}
    (he : ⟨gnmiUpdate c path payload, a⟩ ∈ h) :
    ∃ ruleId, path = rulePath ruleId ∧ FromSet cfg.py ctx.onapRole table entries ruleId payload := by
  have hmem := handledOnly_of_mem hrun he
  rw [hform] at hmem
  obtain ⟨entry, hentry, data, hd, heff⟩ := mem_handled_openconfig hmem
  obtain ⟨rfl, rfl⟩ := Effect.update.inj heff
  exact ⟨data.ruleId, rfl, entry, hentry, data, hd, rfl, rfl⟩

/-- A merge deletes nothing. -/
theorem no_delete_of_merge
    (hrun : SessionRuns ctx (handleEditConfig cfg (some client) rpc) h r)
    (hform : formOf rpc = .openconfig table entries) {c : Client} {path : String}
    {a : Except Exc Unit} : ⟨gnmiDelete c path, a⟩ ∉ h := by
  intro he
  have hmem := handledOnly_of_mem hrun he
  rw [hform] at hmem
  obtain ⟨entry, -, data, -, heff⟩ := mem_handled_openconfig hmem
  exact Effect.noConfusion heff

/-- A delete of a set changes no rule that comes from it. -/
theorem after_delete
    (hrun : SessionRuns ctx (handleEditConfig cfg (some client) rpc) h r)
    (hform : formOf rpc = .openconfigDelete table) {ruleId : String} (hne : table ≠ ruleId)
    (s : Leaves) (leaf : String) : s.after h leaf ruleId = s leaf ruleId := by
  -- Call by call: there is no update, and a delete is of the rule that is named like the set.
  refine Leaves.after_eq (fun e he s => ?_) s
  have hmem := handledOnly_of_mem hrun he
  rw [hform] at hmem
  obtain ⟨op, a⟩ := e
  cases op
  case gnmiUpdate c path payload => simp [handledOnly, Form.handled] at hmem
  case gnmiDelete c path =>
    have hpath : path = rulePath table := by simpa [handledOnly, Form.handled] using hmem
    cases a with
    | error e => rfl
    | ok _ =>
      refine if_neg fun hboth => hne (rulePath_injective ?_)
      rw [← hpath, hboth.2]
  all_goals rfl

/-- After calls that update rules of a set and delete none, the last rule that was updated is on its
leaf. -/
theorem exists_fromSet_of_updates {py : Py} {role : OnapRole}
    (hupdate : ∀ c path payload a, ⟨gnmiUpdate c path payload, a⟩ ∈ h →
      ∃ ruleId, path = rulePath ruleId ∧ FromSet py role table entries ruleId payload)
    (hdelete : ∀ c path a, ⟨gnmiDelete c path, a⟩ ∉ h)
    (hsome : ∃ c path payload, ⟨gnmiUpdate c path payload, .ok ()⟩ ∈ h) (s : Leaves) :
    ∃ leaf ruleId payload, s.after h leaf ruleId = some payload ∧
      FromSet py role table entries ruleId payload := by
  -- From the end: a last call that updates shows its rule, and any other keeps what is there.
  induction h using List.reverseRecOn with
  | nil => simp at hsome
  | append_singleton h e ih =>
    have hstep : s.after (h ++ [e]) = (s.after h).step e := by
      simp [Leaves.after]
    rw [hstep]
    have hrest : (∃ c path payload, ⟨gnmiUpdate c path payload, .ok ()⟩ ∈ h) →
        ∃ leaf ruleId payload, s.after h leaf ruleId = some payload ∧
          FromSet py role table entries ruleId payload :=
      ih (fun c path payload a he => hupdate c path payload a (by simp [he]))
        fun c path a he => hdelete c path a (by simp [he])
    obtain ⟨op, a⟩ := e
    by_cases hlast : ∃ c path payload, (⟨op, a⟩ : SfEvent) = ⟨gnmiUpdate c path payload, .ok ()⟩
    · obtain ⟨c, path, payload, heq⟩ := hlast
      obtain ⟨ruleId, rfl, hfrom⟩ := hupdate c path payload (.ok ()) (by simp [heq])
      rw [heq]
      exact ⟨c.host, ruleId, payload, if_pos ⟨rfl, rfl⟩, hfrom⟩
    · have hkeep : (s.after h).step ⟨op, a⟩ = s.after h := by
        cases op
        case gnmiUpdate c path payload =>
          cases a with
          | error e => rfl
          | ok _ => exact absurd ⟨c, path, payload, rfl⟩ hlast
        case gnmiDelete c path => exact absurd (by simp) (hdelete c path a)
        all_goals rfl
      rw [hkeep]
      obtain ⟨c, path, payload, he⟩ := hsome
      rcases List.mem_append.mp he with he | he
      · exact hrest ⟨c, path, payload, he⟩
      · exact absurd ⟨c, path, payload, (List.mem_singleton.mp he).symm⟩ hlast

end

/-- The rules of a set with entries outlast the delete of the set. -/
theorem not_gone_of_entries {cfg : SfConfig} {client₁ client₂ : Client} {ctx₁ ctx₂ : SessionContext}
    {rpc₁ rpc₂ : Xml} {table : String} {entries : List Xml} {h₁ h₂ : List SfEvent} {m₁ : String}
    {r₂ : Except Exc Reply} (hmerge : formOf rpc₁ = .openconfig table entries)
    (hdelete : formOf rpc₂ = .openconfigDelete table)
    (hrun₁ : SessionRuns ctx₁ (handleEditConfig cfg (some client₁) rpc₁) h₁ (.ok (.ok m₁)))
    (hrun₂ : SessionRuns ctx₂ (handleEditConfig cfg (some client₂) rpc₂) h₂ r₂)
    (hne : entries ≠ []) (s : Leaves) :
    ¬ Gone cfg.py ctx₁.onapRole table entries ((s.after h₁).after h₂) := by
  intro hgone
  have hdone := formDone_of_ok hrun₁
  rw [hmerge] at hdone
  obtain ⟨entry, rest, rfl⟩ := List.exists_cons_of_ne_nil hne
  obtain ⟨data, -, -, p, c, -, he⟩ := hdone entry (by simp)
  -- The first entry was pushed, so that some rule of the set is on a leaf after the merge; the delete
  -- is of another id and keeps it.
  obtain ⟨leaf, ruleId, payload, hleaf, hfrom⟩ := exists_fromSet_of_updates
    (fun c path payload a he => fromSet_of_update hrun₁ hmerge he)
    (fun c path a => no_delete_of_merge hrun₁ hmerge) ⟨c, _, _, he⟩ s
  obtain ⟨entry', -, data', hd', rfl, -⟩ := id hfrom
  have hkeep := after_delete hrun₂ hdelete (ne_of_entryData hd') (s.after h₁) leaf
  exact hgone leaf _ payload (hkeep.trans hleaf) hfrom

/-- After a merge of an ACL set and a delete of the set, both answered with `<ok/>`, the rules that came
from it are gone exactly when it had no entries. -/
theorem gone_iff (cfg : SfConfig) {client₁ client₂ : Client} {ctx₁ ctx₂ : SessionContext}
    {rpc₁ rpc₂ : Xml} {table : String} {entries : List Xml} {h₁ h₂ : List SfEvent} {m₁ m₂ : String}
    (hmerge : formOf rpc₁ = .openconfig table entries)
    (hdelete : formOf rpc₂ = .openconfigDelete table)
    (hrun₁ : SessionRuns ctx₁ (handleEditConfig cfg (some client₁) rpc₁) h₁ (.ok (.ok m₁)))
    (hrun₂ : SessionRuns ctx₂ (handleEditConfig cfg (some client₂) rpc₂) h₂ (.ok (.ok m₂)))
    (s : Leaves) :
    Gone cfg.py ctx₁.onapRole table entries ((s.after h₁).after h₂) ↔ entries = [] := by
  constructor
  · intro hgone
    by_contra hne
    exact not_gone_of_entries hmerge hdelete hrun₁ hrun₂ hne s hgone
  · rintro rfl leaf ruleId payload - ⟨entry, hentry, -⟩
    simp at hentry

/-- Every leaf is connected at every look at the pool. -/
def AllConnected (cfg : SfConfig) (h : List SfEvent) : Prop :=
  ∀ p, ⟨pool, p⟩ ∈ h → ∀ leaf ∈ cfg.leafIps, (p.getClientByKey .admin leaf).isSome = true

/-- The merge of an ACL set with one entry. -/
def mergeSet : Xml := ocDoc [ocSet "A" ["10"]]

/-- The delete of that set. -/
def deleteSet : Xml :=
  ocDoc [.node NS_OC_ACL "acl-set" [(OPERATION, "delete")] none [ocLeaf "name" "A"]]

/-- The form of the merge. -/
theorem formOf_mergeSet :
    formOf mergeSet = .openconfig "A" [ocElem "acl-entry" [ocLeaf "sequence-id" "10"]] := by
  rfl

/-- The form of the delete. -/
theorem formOf_deleteSet : formOf deleteSet = .openconfigDelete "A" := by
  rfl

/-- A document when all is well, in an ADMIN session. -/
def setRun (rpc : Xml) : List SfEvent × Except Exc Reply × Unit :=
  Prog.run (fun _ => sunny (some adminSession)) []
    (handleEditConfig plainSf (some ⟨DEFAULT_LEAF1, 0⟩) rpc ())

/-- It is a run of the session in which every leaf is connected at every look at the pool. -/
theorem setRun_runs {rpc : Xml} {reply : Reply} (hok : (setRun rpc).2.1 = .ok reply) :
    SessionRuns adminSession (handleEditConfig plainSf (some ⟨DEFAULT_LEAF1, 0⟩) rpc) (setRun rpc).1
      (.ok reply) ∧ AllConnected plainSf (setRun rpc).1 := by
  have hrun := @sessionRuns_run _ (sunny (some adminSession)) adminSession rfl
    (handleEditConfig plainSf (some ⟨DEFAULT_LEAF1, 0⟩) rpc)
  obtain ⟨-, hans⟩ := Prog.runs_const (sunny (some adminSession))
    (handleEditConfig plainSf (some ⟨DEFAULT_LEAF1, 0⟩) rpc ())
  refine ⟨hok ▸ hrun, fun p hp leaf _ => ?_⟩
  have hfull : p = .full := hans ⟨pool, p⟩ hp
  rw [hfull]
  simp

/-- A set with an entry is merged and deleted, and its rule stays. -/
theorem gone_iff_merged :
    ¬ Gone plainSf.py .admin "A" [ocElem "acl-entry" [ocLeaf "sequence-id" "10"]]
      (Leaves.after (Leaves.after (fun _ _ => none) (setRun mergeSet).1) (setRun deleteSet).1) := by
  have hok₁ : (setRun mergeSet).2.1 = .ok (.ok "7") := rfl
  have hok₂ : (setRun deleteSet).2.1 = .ok (.ok "7") := rfl
  have hiff := gone_iff plainSf formOf_mergeSet formOf_deleteSet (setRun_runs hok₁).1
    (setRun_runs hok₂).1 fun _ _ => none
  exact fun hgone => absurd (hiff.mp hgone) (by simp)

/-- Not every set that is merged and deleted, with all leaves connected, is gone. -/
theorem exists_set_not_gone :
    ¬ ∀ (cfg : SfConfig) (client₁ client₂ : Client) (ctx₁ ctx₂ : SessionContext) (rpc₁ rpc₂ : Xml)
      (table : String) (entries : List Xml) (h₁ h₂ : List SfEvent) (m₁ m₂ : String) (s : Leaves),
      formOf rpc₁ = .openconfig table entries → formOf rpc₂ = .openconfigDelete table →
      SessionRuns ctx₁ (handleEditConfig cfg (some client₁) rpc₁) h₁ (.ok (.ok m₁)) →
      SessionRuns ctx₂ (handleEditConfig cfg (some client₂) rpc₂) h₂ (.ok (.ok m₂)) →
      AllConnected cfg h₁ → AllConnected cfg h₂ →
      Gone cfg.py ctx₁.onapRole table entries ((s.after h₁).after h₂) := by
  intro hall
  have hok₁ : (setRun mergeSet).2.1 = .ok (.ok "7") := rfl
  have hok₂ : (setRun deleteSet).2.1 = .ok (.ok "7") := rfl
  obtain ⟨hrun₁, hup₁⟩ := setRun_runs hok₁
  obtain ⟨hrun₂, hup₂⟩ := setRun_runs hok₂
  have hgone := hall plainSf _ _ _ _ mergeSet deleteSet _ _ _ _ _ _ (fun _ _ => none)
    formOf_mergeSet formOf_deleteSet hrun₁ hrun₂ hup₁ hup₂
  exact not_gone_of_entries formOf_mergeSet formOf_deleteSet hrun₁ hrun₂ (by simp) _ hgone

end ControlPlane.Secure
