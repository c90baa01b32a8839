import ControlPlane.Intel.Placement

/-!
# Drops on allowed flows

The policy check of the validators looks at one pair of zones: those of the address before the slash
of the source and of the destination. A rule drops every flow between its two networks, and with no
destination every flow from its source. `sparesAllowed_iff` says when an accepted drop leaves the
flows alone that the policy matrix allows: when of the zones that its networks meet, no pair but the
one that was checked is allowed.
-/

namespace ControlPlane.Intel

open Text Ip

/-! ## The flows of a rule -/

/-- The text denotes a network with the address. -/
def Covers (ip : String) (a : Address) : Prop :=
  ∃ net, ipNetwork false (strip ip) = some net ∧ a ∈ net

/-- So does the destination of a rule, which is every address when it is empty. -/
def CoversDst (dstIp : String) (a : Address) : Prop := dstIp ≠ "" → Covers dstIp a

/-- No flow of the rule is one that the policy matrix allows. -/
def SparesAllowed (kb : Knowledge) (rule : PolicyRule) : Prop :=
  ∀ s d : Address, Covers rule.srcIp s → CoversDst rule.dstIp d →
    ∀ src dst : Zone, s ∈ src.network → d ∈ dst.network → checkPolicy kb src dst ≠ "ALLOW"

/-! ## The zones of a rule -/

/-- A network meets a zone: one lies inside the other. -/
def meets (net : Network) (z : Zone) : Bool :=
  net.subnetOf z.network == some true || z.network.subnetOf net == some true

/-- The zones that the network of a text meets. -/
def metZones (ip : String) : List Zone :=
  ZONES.filter fun z => (ipNetwork false (strip ip)).any fun net => meets net z

/-- The zones that a destination meets. -/
def metDstZones (dstIp : String) : List Zone := if dstIp = "" then ZONES else metZones dstIp

/-- The signature overrides the matrix, since its own response is a drop. -/
def overrides (py : Py) (kb : Knowledge) (sid : ℤ) : Bool :=
  (kb.recommendedResponse sid).any fun r => r != "" && containsText "DROP" (py.upper r)

/-- The pair of zones that the validators check. -/
def Checked (py : Py) (kb : Knowledge) (rule : PolicyRule) (sid : ℤ) (src dst : Zone) : Prop :=
  rule.dstIp ≠ "" ∧ ipToZone rule.srcIp = some src ∧ ipToZone rule.dstIp = some dst ∧
    overrides py kb sid = false

instance (py : Py) (kb : Knowledge) (rule : PolicyRule) (sid : ℤ) (src dst : Zone) :
    Decidable (Checked py kb rule sid src dst) :=
  inferInstanceAs (Decidable (_ ∧ _ ∧ _ ∧ _))

/-- A network meets a zone exactly when they have an address in common. -/
theorem meets_iff {net : Network} {z : Zone} :
    meets net z = true ↔ ∃ a : Address, a ∈ net ∧ a ∈ z.network := by
  unfold meets
  rw [Network.exists_mem_iff, Bool.or_eq_true, beq_iff_eq, beq_iff_eq,
    Network.subnetOf_eq_some_true, Network.subnetOf_eq_some_true]

/-- A text meets a zone exactly when it covers an address of the zone. -/
theorem mem_metZones {ip : String} {z : Zone} :
    z ∈ metZones ip ↔ ∃ a : Address, Covers ip a ∧ a ∈ z.network := by
  unfold metZones Covers
  rw [List.mem_filter, Option.any_eq_true]
  constructor
  · rintro ⟨-, net, hnet, hm⟩
    obtain ⟨a, ha, hz⟩ := meets_iff.mp hm
    exact ⟨a, ⟨net, hnet, ha⟩, hz⟩
  · rintro ⟨a, ⟨net, hnet, ha⟩, hz⟩
    refine ⟨?_, net, hnet, meets_iff.mpr ⟨a, ha, hz⟩⟩
    cases z <;> simp [ZONES]

/-- A destination meets a zone exactly when it covers an address of the zone. -/
theorem mem_metDstZones {dstIp : String} {z : Zone} :
    z ∈ metDstZones dstIp ↔ ∃ a : Address, CoversDst dstIp a ∧ a ∈ z.network := by
  unfold metDstZones CoversDst
  split_ifs with h0
  · constructor
    · intro _
      exact ⟨z.network.first, fun hne => absurd h0 hne, z.network.first_mem⟩
    · intro _
      cases z <;> simp [ZONES]
  · rw [mem_metZones]
    simp [h0]

/-- A rule spares the allowed flows exactly when no pair of the zones that it meets is allowed. -/
theorem sparesAllowed_iff_forall {kb : Knowledge} {rule : PolicyRule} :
    SparesAllowed kb rule ↔ ∀ src ∈ metZones rule.srcIp, ∀ dst ∈ metDstZones rule.dstIp,
      checkPolicy kb src dst ≠ "ALLOW" := by
  unfold SparesAllowed
  constructor
  · intro h src hsrc dst hdst
    obtain ⟨s, hs, hsz⟩ := mem_metZones.mp hsrc
    obtain ⟨d, hd, hdz⟩ := mem_metDstZones.mp hdst
    exact h s d hs hd src dst hsz hdz
  · intro h s d hs hd src dst hsz hdz
    exact h src (mem_metZones.mpr ⟨s, hs, hsz⟩) dst (mem_metDstZones.mpr ⟨d, hd, hdz⟩)

/-! ## What the check leaves open -/

/-- The pair that the validators check is not allowed. -/
theorem not_allowed_of_checked {py : Py} {kb : Knowledge} {rule : PolicyRule}
    {sid ttlMin ttlMax : ℤ} {alertSrcIp : String} {src dst : Zone} (hdrop : rule.action = .drop)
    (h : (validateIntent py kb rule sid ttlMin ttlMax alertSrcIp).errors = [])
    (hc : Checked py kb rule sid src dst) : checkPolicy kb src dst ≠ "ALLOW" := by
  obtain ⟨hne, hsrc, hdst, hover⟩ := hc
  intro hallow
  have hnone := conflict_of_validateIntent h hne
  unfold detectConflict at hnone
  unfold overrides at hover
  rw [hsrc, hdst, hdrop] at hnone
  simp only at hnone
  rw [if_pos ⟨rfl, hallow⟩, if_neg (by rw [hover]; simp)] at hnone
  simp at hnone

/-- An accepted drop spares the allowed flows exactly when no pair of the zones that it meets is
allowed, other than the one that was checked. -/
theorem sparesAllowed_iff {py : Py} {kb : Knowledge} {rule : PolicyRule} {sid ttlMin ttlMax : ℤ}
    {alertSrcIp : String} (hdrop : rule.action = .drop)
    (h : (validateIntent py kb rule sid ttlMin ttlMax alertSrcIp).errors = []) :
    SparesAllowed kb rule ↔ ∀ src ∈ metZones rule.srcIp, ∀ dst ∈ metDstZones rule.dstIp,
      ¬ Checked py kb rule sid src dst → checkPolicy kb src dst ≠ "ALLOW" := by
  rw [sparesAllowed_iff_forall]
  constructor
  · intro hall src hsrc dst hdst _
    exact hall src hsrc dst hdst
  · intro hall src hsrc dst hdst
    by_cases hc : Checked py kb rule sid src dst
    · exact not_allowed_of_checked hdrop h hc
    · exact hall src hsrc dst hdst hc

/-! ## A destination wider than its zone -/

/-- A knowledge base whose matrix allows the flows from the application zone to the databases. -/
def appToDb : Knowledge := { bareKnowledge with policyMatrix := [(("APP", "DB"), "ALLOW")] }

/-- The drop of the flows between two hosts spares the allowed flows. -/
theorem sparesAllowed_iff_hosts :
    SparesAllowed appToDb (dropRule "10.2.100.10/32" "10.1.100.10/32") := by
  have hacc : (validateIntent (.ascii (fun s => s) fun _ => none) appToDb
      (dropRule "10.2.100.10/32" "10.1.100.10/32") 1 60 3600 "10.2.100.10").errors = [] := by
    rfl
  rw [sparesAllowed_iff rfl hacc]
  decide

/-- The validators accept a drop whose destination is a `/16` around a host of the web zone,
although the databases are in it as well. -/
theorem exists_accepted_not_sparesAllowed :
    ¬ ∀ (py : Py) (kb : Knowledge) (rule : PolicyRule) (sid ttlMin ttlMax : ℤ)
      (alertSrcIp : String), rule.action = .drop →
      (∀ r, kb.recommendedResponse sid = some r → containsText "DROP" (py.upper r) = false) →
      (validateIntent py kb rule sid ttlMin ttlMax alertSrcIp).errors = [] →
      SparesAllowed kb rule := by
  intro hall
  have hspares := hall (.ascii (fun s => s) fun _ => none) appToDb
    (dropRule "10.2.100.10/32" "10.1.100.10/16") 1 60 3600 "10.2.100.10" rfl
    (fun r hr => absurd hr (by simp [appToDb, bareKnowledge])) rfl
  rw [sparesAllowed_iff_forall] at hspares
  exact hspares .app (by decide) .db (by decide) (by decide)

end ControlPlane.Intel
