import ControlPlane.Intel.Gate

/-!
# The networks that a pushed rule blocks

The guardrail looks at one address of each text, the one before the slash. A rule blocks the whole
prefix. `clear_iff_of_process` says when a rule that reaches the backend stays clear of
`NEVER_BLOCK`: when no entry of the list lies inside its prefixes, and the trimmed destination does
not start with a protected address. Trimming matters for the destination only: a source that has
been accepted starts with an address of a zone, and so with no white space.
-/

namespace ControlPlane.Intel

open Text Ip

/-- The network that a text denotes after trimming, if it does, is clear of `NEVER_BLOCK`. -/
def ClearText (ip : String) : Prop := ∀ net, ipNetwork false (strip ip) = some net → Clear net

/-- The source of a rule, and its destination when there is one, are clear of `NEVER_BLOCK`. -/
def ClearFlow (srcIp dstIp : String) : Prop :=
  ClearText srcIp ∧ (dstIp ≠ "" → ClearText dstIp)

/-- No entry of `NEVER_BLOCK` is a subnet of the network that a text denotes after trimming. -/
def Narrow (ip : String) : Prop :=
  ∀ net, ipNetwork false (strip ip) = some net → coversNeverBlock net = false

/-- A destination that starts with a protected address after trimming. -/
def Padded (ip : String) : Prop :=
  isProtectedIp (strip ip) = true ∧ (ipNetwork false (strip ip)).isSome = true

/-- A text that does not start with a protected address is clear when it is narrow. -/
theorem clearText_iff {ip : String} (hp : isProtectedIp (strip ip) = false) :
    ClearText ip ↔ Narrow ip := by
  unfold ClearText Narrow
  constructor
  · intro h net hnet
    exact (clear_iff_of_not_protected hnet hp).mp (h net hnet)
  · intro h net hnet
    exact (clear_iff_of_not_protected hnet hp).mpr (h net hnet)

/-- A text is clear when it is narrow and does not start with a protected address. -/
theorem clearText_iff_not_padded {ip : String} :
    ClearText ip ↔ Narrow ip ∧ ¬ Padded ip := by
  by_cases hp : isProtectedIp (strip ip) = true
  · cases hnet : ipNetwork false (strip ip) with
    | none => simp [ClearText, Narrow, Padded, hnet]
    | some net =>
      have hclear := not_clear_of_protected hnet hp
      simp [ClearText, Padded, hnet, hp, hclear]
  · rw [clearText_iff (by simpa using hp)]
    simp [Padded, hp]

/-- Trimming a source of a zone leaves its address alone. -/
theorem isProtectedIp_strip {ip : String} {z : Zone} (hz : ipToZone ip = some z) :
    isProtectedIp (strip ip) = isProtectedIp ip := by
  obtain ⟨a, ha, hmem⟩ := ipToZone_eq_some.mp hz
  have hspace := no_space_of_ipAddress ha (hmem.1.trans z.network_shape.1)
  have hne : firstPart '/' ip ≠ "" := by
    intro h0
    have hnone : ipAddress "" = none := by decide +kernel
    rw [h0, hnone] at ha
    simp at ha
  unfold isProtectedIp
  rw [firstPart_strip (by decide) hne hspace]

/-- A rule that the validators accept is clear exactly when its prefixes hold no entry of
`NEVER_BLOCK` and its destination does not start with a protected address after trimming. -/
theorem clearFlow_iff_of_accepted {kb : Knowledge} {rule : PolicyRule} {sid ttlMin ttlMax : ℤ}
    {alertSrcIp : String} (hacc : Accepted kb rule sid ttlMin ttlMax alertSrcIp) :
    ClearFlow rule.srcIp rule.dstIp ↔
      Narrow rule.srcIp ∧ (rule.dstIp ≠ "" → Narrow rule.dstIp ∧ ¬ Padded rule.dstIp) := by
  obtain ⟨z, hz⟩ := hacc.zone
  have hsrc : isProtectedIp (strip rule.srcIp) = false := by
    rw [isProtectedIp_strip hz]
    exact hacc.src
  unfold ClearFlow
  rw [clearText_iff hsrc, clearText_iff_not_padded]

/-- Wherever a run of `process` calls the backend, an event of the run, an answer of the model or a
template of the cache, proposed the flow; and the rule is clear of `NEVER_BLOCK` exactly when the
proposed prefixes hold no entry of the list and the proposed destination does not start with a
protected address after trimming. -/
theorem clear_iff_of_process {cfg : AgentConfig} {alert : SuricataAlert}
    {h₁ h₂ : List AgentEvent} {intent : PolicyIntent} {a : Except Exc EnforcementResult}
    {r : Except Exc PolicyDecision}
    (hp : Process cfg alert (h₁ ++ ⟨.enforce intent, a⟩ :: h₂) r) :
    ∃ e ∈ h₁, ∃ src dst, proposal cfg alert e = some (src, dst) ∧ intent.srcIp = src ∧
      intent.dstIp = dst ∧ (ClearFlow intent.srcIp intent.dstIp ↔
        Narrow src ∧ (dst ≠ "" → Narrow dst ∧ ¬ Padded dst)) := by
  obtain ⟨sid, hc⟩ := cleared_of_process hp
  obtain ⟨e, he, hprop⟩ := hc.proposed
  refine ⟨e, he, intent.srcIp, intent.dstIp, hprop, rfl, rfl, ?_⟩
  exact clearFlow_iff_of_accepted (accepted_of_validateIntent hc.drop hc.valid)

/-- The run that drops a host of the web zone as a `/32` calls the backend with a clear flow. -/
theorem clear_iff_of_process_host :
    ∃ h₁ intent a h₂, (plainRun "10.1.100.10" "10.1.100.10/32" "").1 =
        h₁ ++ ⟨.enforce intent, a⟩ :: h₂ ∧ ClearFlow intent.srcIp intent.dstIp := by
  have hflow : (plainRun "10.1.100.10" "10.1.100.10/32" "").1.findSome? enforcedFlow =
      some ("10.1.100.10/32", "") := by decide +kernel
  obtain ⟨h₁, intent, a, h₂, heq, hsrc, hdst, hp⟩ := exists_process_of_flow hflow
  refine ⟨h₁, intent, a, h₂, heq, ?_⟩
  obtain ⟨e, -, src, dst, -, rfl, rfl, hiff⟩ := clear_iff_of_process hp
  refine hiff.mpr ⟨fun net hnet => ?_, fun hne => absurd hdst hne⟩
  have hcover : (ipNetwork false (strip "10.1.100.10/32")).any coversNeverBlock = false := by
    decide +kernel
  rw [hsrc] at hnet
  simpa [hnet] using hcover

/-- When the model drops the `/24` around a host of the web zone, the backend is called with a
prefix that holds the gateway of the zone. -/
theorem exists_process_not_clear :
    ¬ ∀ (cfg : AgentConfig) (alert : SuricataAlert) (h₁ h₂ : List AgentEvent)
      (intent : PolicyIntent) (a : Except Exc EnforcementResult) (r : Except Exc PolicyDecision),
      Process cfg alert (h₁ ++ ⟨.enforce intent, a⟩ :: h₂) r →
      ClearFlow intent.srcIp intent.dstIp := by
  intro hall
  have hflow : (plainRun "10.1.100.10" "10.1.100.10/24" "").1.findSome? enforcedFlow =
      some ("10.1.100.10/24", "") := by decide +kernel
  obtain ⟨h₁, intent, a, h₂, -, hsrc, -, hp⟩ := exists_process_of_flow hflow
  have hclear := (hall _ _ h₁ h₂ intent a _ hp).1
  rw [hsrc, clearText_iff (by decide +kernel)] at hclear
  have hcover : (ipNetwork false (strip "10.1.100.10/24")).any coversNeverBlock = true := by
    decide +kernel
  cases hnet : ipNetwork false (strip "10.1.100.10/24") with
  | none => simp [hnet] at hcover
  | some net => simp [hnet, hclear net hnet] at hcover

end ControlPlane.Intel
