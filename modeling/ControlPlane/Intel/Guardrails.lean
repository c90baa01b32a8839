import ControlPlane.Lib.Ipaddress

/-!
# The hard guardrails

The model of `agent/safety/guardrails.py`. `NEVER_BLOCK` lists the networks that no rule may touch;
`isProtectedIp` looks up the address before a slash in it, and `checkNeverBlock` applies that to the
source and the destination of an intent.

The lookup is about one address. What it says about the whole network of a text is in
`clear_iff_of_not_protected`: when the address before the slash is not protected, the network
is clear of `NEVER_BLOCK` exactly when no entry of the list lies inside it.
-/

namespace ControlPlane.Intel

open Text Ip

/-- `NEVER_BLOCK`. -/
def NEVER_BLOCK : List String :=
  ["127.0.0.0/8", "10.10.6.0/24", "192.168.122.0/24", "10.1.100.1/32", "10.1.200.1/32",
    "10.2.100.1/32", "10.2.50.1/32"]

/-- Every entry of `NEVER_BLOCK` is a network. -/
theorem never_block_isSome : (NEVER_BLOCK.mapM (ipNetwork false)).isSome = true := by
  decide +kernel

/-- `_NEVER_BLOCK_NETS`. -/
def NEVER_BLOCK_NETS : List Network :=
  (NEVER_BLOCK.mapM (ipNetwork false)).get never_block_isSome

/-- `is_protected_ip`. -/
def isProtectedIp (ip : String) : Bool :=
  match ipAddress (firstPart '/' ip) with
  | none => false
  | some addr => NEVER_BLOCK_NETS.any fun net => decide (addr ∈ net)

/-- `check_never_block`: an error text, or `none` when both addresses are safe. -/
def checkNeverBlock (srcIp dstIp : String) : Option String :=
  if isProtectedIp srcIp then
    some ("L4 HARD FAIL: src_ip " ++ srcIp ++ " is in NEVER_BLOCK whitelist")
  else if dstIp ≠ "" ∧ isProtectedIp dstIp then
    some ("L4 HARD FAIL: dst_ip " ++ dstIp ++ " is in NEVER_BLOCK whitelist")
  else none

/-- `check_allowed_action`, with `allowed` for `ALLOWED_AGENT_ACTIONS`. -/
def checkAllowedAction (T : PyText) (allowed : List String) (action : String) : Option String :=
  if action ∈ allowed then none
  else some ("L4 HARD FAIL: action '" ++ action ++ "' not in allowed set frozenset("
    ++ T.set allowed ++ "). Agent may only issue DROP rules.")

/-- The guardrail on addresses passes when neither address is protected. -/
theorem checkNeverBlock_eq_none {srcIp dstIp : String} :
    checkNeverBlock srcIp dstIp = none ↔
      isProtectedIp srcIp = false ∧ (dstIp ≠ "" → isProtectedIp dstIp = false) := by
  unfold checkNeverBlock
  split_ifs with h1 h2
  · simp [h1]
  · simp [h2]
  · simp only [true_iff]
    refine ⟨by simpa using h1, fun hd => ?_⟩
    by_contra hp
    exact h2 ⟨hd, by simpa using hp⟩

/-- The guardrail on actions passes for the actions of the list. -/
theorem checkAllowedAction_eq_none {T : PyText} {allowed : List String} {action : String} :
    checkAllowedAction T allowed action = none ↔ action ∈ allowed := by
  unfold checkAllowedAction
  split_ifs with h
  · simp [h]
  · simp [h]

/-- An address text is protected when the address before its slash is in a `NEVER_BLOCK` network. -/
theorem isProtectedIp_eq_true {ip : String} :
    isProtectedIp ip = true ↔
      ∃ a, ipAddress (firstPart '/' ip) = some a ∧ ∃ net ∈ NEVER_BLOCK_NETS, a ∈ net := by
  unfold isProtectedIp
  cases ipAddress (firstPart '/' ip) with
  | none => simp
  | some a => simp

/-- A network text is clear of `NEVER_BLOCK`: no address of its network is in an entry of the list. -/
def Clear (net : Network) : Prop := ∀ nb ∈ NEVER_BLOCK_NETS, ∀ a : Address, a ∈ net → a ∉ nb

/-- `any(nb.subnet_of(net) for nb in _NEVER_BLOCK_NETS)`, false across versions. -/
def coversNeverBlock (net : Network) : Bool :=
  NEVER_BLOCK_NETS.any fun nb => nb.subnetOf net == some true

/-- A network around an address that is not protected is clear exactly when no entry of the list
lies inside it, since networks are nested or disjoint. -/
theorem clear_iff_of_not_protected {ip : String} {net : Network}
    (hnet : ipNetwork false ip = some net) (hp : isProtectedIp ip = false) :
    Clear net ↔ coversNeverBlock net = false := by
  obtain ⟨a, ha, hmem⟩ := mem_of_ipNetwork hnet
  -- The address itself is in no entry, so an entry that meets the network lies inside it.
  have hout : ∀ nb ∈ NEVER_BLOCK_NETS, a ∉ nb := by
    intro nb hnb hin
    have : isProtectedIp ip = true := isProtectedIp_eq_true.mpr ⟨a, ha, nb, hnb, hin⟩
    rw [hp] at this
    simp at this
  have hone : ∀ nb ∈ NEVER_BLOCK_NETS,
      (∀ x : Address, x ∈ net → x ∉ nb) ↔ nb.subnetOf net ≠ some true := by
    intro nb hnb
    rw [ne_eq, Network.subnetOf_eq_some_true, ← Network.exists_mem_iff_subset hmem (hout nb hnb)]
    push Not
    rfl
  unfold Clear coversNeverBlock
  rw [List.any_eq_false]
  constructor
  · intro h nb hnb
    simpa using (hone nb hnb).mp (h nb hnb)
  · intro h nb hnb
    exact (hone nb hnb).mpr (by simpa using h nb hnb)

/-- A network around a protected address is not clear. -/
theorem not_clear_of_protected {ip : String} {net : Network} (hnet : ipNetwork false ip = some net)
    (hp : isProtectedIp ip = true) : ¬ Clear net := by
  obtain ⟨a, ha, nb, hnb, hin⟩ := isProtectedIp_eq_true.mp hp
  obtain ⟨b, hb, hmem⟩ := mem_of_ipNetwork hnet
  rw [ha] at hb
  simp only [Option.some.injEq] at hb
  subst hb
  exact fun h => h nb hnb a hmem hin

end ControlPlane.Intel
