import ControlPlane.Intel.Validators
import ControlPlane.Intel.Backend
import ControlPlane.Secure.Zones

/-!
# Where an accepted rule lands

Three components read the source text of a rule: the validators look at the address before the
slash, the off-target check at the trimmed prefix, and the Secure Framework at the pushed text as it
is. `Placed` says that they agree: the prefix lies inside one zone, and the pushed text is routed to
the leaf behind the source of the alert. `placed_iff` gives the exact condition for an accepted
`DROP`.
-/

namespace ControlPlane.Intel

open Text Ip

/-- The two zone maps hold the same prefixes in the same order, with the same leaves. -/
theorem zone_networks_eq :
    Secure.ZONE_NETWORKS = ZONES.map fun z => (z.network, z.leaf.sshHost) := by
  rfl

/-- A network inside a zone is inside no other. -/
theorem zone_eq_of_subset {n : Network} {z z' : Zone} (h : n.Subset z.network)
    (h' : n.Subset z'.network) : z = z' :=
  Zone.eq_of_mem (h _ n.first_mem) (h' _ n.first_mem)

/-- A network around an address of a zone lies inside the zone when its length is at least 24. -/
theorem subset_zone_iff {a : Address} {n : Network} {z : Zone} (hn : a ∈ n)
    (hz : a ∈ z.network) : n.Subset z.network ↔ 24 ≤ n.prefixlen := by
  rw [Network.subset_iff_prefixlen_le hn hz, z.network_shape.2]

/-- The Secure Framework routes a prefix inside a zone to the leaf behind it. -/
theorem secure_ipToLeaf_of_subset {src : String} {n : Network} {z : Zone}
    (hnet : ipNetwork false src = some n) (hsub : n.Subset z.network) :
    Secure.ipToLeaf src = .ok (some z.leaf.sshHost) := by
  have hv : n.version = .v4 := (Network.version_eq_of_subset hsub).trans z.network_shape.1
  rw [Secure.ipToLeaf_eq_some hnet hv, zone_networks_eq, List.find?_map]
  refine ⟨z.network, ?_⟩
  cases hf : ZONES.find? ((fun x => n.subnetOf x.1 == some true) ∘
      fun z => (z.network, z.leaf.sshHost)) with
  | none =>
    have hall : z ∈ ZONES := by cases z <;> simp [ZONES]
    have := List.find?_eq_none.mp hf z hall
    simp [Network.subnetOf_eq_some_true.mpr hsub] at this
  | some z' =>
    have hsub' : n.Subset z'.network := by
      simpa [Network.subnetOf_eq_some_true] using List.find?_some hf
    rw [zone_eq_of_subset hsub hsub']
    rfl

/-- The source text of a rule and the source text of its alert are read alike: the prefix lies
inside exactly one zone, and the pushed text goes to the leaf of the alert's source. -/
def Placed (srcIp alertSrcIp : String) : Prop :=
  (∃ net, ipNetwork false (strip srcIp) = some net ∧ ∃! z : Zone, net.Subset z.network) ∧
    ∃ leaf, ipToLeaf alertSrcIp = some leaf ∧
      Secure.ipToLeaf (pushedSrc srcIp) = .ok (some leaf.sshHost)

/-- The trimmed source prefix has a length of at least 24. -/
def ZonePrefix (srcIp : String) : Prop :=
  ∀ net, ipNetwork false (strip srcIp) = some net → 24 ≤ net.prefixlen

/-- What the off-target check has read when it passes. -/
theorem ipMatchesAlertSrc_eq_true {srcIp alertSrcIp : String}
    (h : ipMatchesAlertSrc srcIp alertSrcIp = true) :
    ∃ a net, ipAddress (strip alertSrcIp) = some a ∧ ipNetwork false (strip srcIp) = some net ∧
      a ∈ net := by
  unfold ipMatchesAlertSrc at h
  split_ifs at h with h0
  · split at h
    · next a net ha hnet => exact ⟨a, net, ha, hnet, by simpa using h⟩
    · simp at h

/-- A pushed text that is routed holds no white space, and nor does the source text in it. -/
theorem strip_eq_of_routed {srcIp leaf : String}
    (h : Secure.ipToLeaf (pushedSrc srcIp) = .ok (some leaf)) : strip srcIp = srcIp := by
  unfold Secure.ipToLeaf at h
  split at h
  · simp at h
  · next net hnet =>
    have hv := Secure.version_of_leafOf Secure.zone_networks_version h
    have hspace := no_space_of_ipNetwork hnet hv
    apply strip_of_forall
    intro c hc
    apply hspace
    unfold pushedSrc
    split_ifs
    · exact hc
    · simp [hc]

/-- An alert source that is routed and trims to an address is trimmed already. -/
theorem strip_eq_of_ipToLeaf {alertSrcIp : String} {leaf : Leaf} {a : Address}
    (h : ipToLeaf alertSrcIp = some leaf) (ha : ipAddress (strip alertSrcIp) = some a) :
    strip alertSrcIp = alertSrcIp := by
  rw [ipToLeaf_eq] at h
  obtain ⟨z, hz, -⟩ := Option.map_eq_some_iff.mp h
  obtain ⟨b, hb, hmem⟩ := ipToZone_eq_some.mp hz
  have hno : '/' ∉ alertSrcIp.toList := by
    rw [← mem_strip (by decide)]
    exact (firstPart_of_ipAddress ha).1
  have hfirst : firstPart '/' alertSrcIp = alertSrcIp := by
    rw [firstPart, split_of_not_mem hno]
    rfl
  rw [hfirst] at hb
  exact strip_of_forall (no_space_of_ipAddress hb (hmem.1.trans z.network_shape.1))

/-- The pushed text of a trimmed prefix of length at least 24 around an address denotes a network
of length at least 24 around it. -/
theorem exists_pushed_network {srcIp : String} {net : Network} {a : Address}
    (hnet : ipNetwork false srcIp = some net) (hlen : 24 ≤ net.prefixlen)
    (ha : ipAddress (firstPart '/' srcIp) = some a) (hmem : a ∈ net) (hv : a.version = .v4) :
    ∃ n, ipNetwork false (pushedSrc srcIp) = some n ∧ a ∈ n ∧ 24 ≤ n.prefixlen := by
  unfold pushedSrc
  split_ifs with hslash
  · exact ⟨net, hnet, hmem, hlen⟩
  · have hno : '/' ∉ srcIp.toList := by simpa [contains] using hslash
    rw [firstPart, split_of_not_mem hno] at ha
    obtain ⟨-, n, hn, hp, hin⟩ := ipNetwork_host (ipv4Address_of_ipAddress ha hv)
    exact ⟨n, hn, hin, by omega⟩

/-- An accepted `DROP` is placed exactly when its alert has a source, the two texts carry no white
space around them, and the source prefix is no shorter than that of a zone. -/
theorem placed_iff {py : Py} {kb : Knowledge} {rule : PolicyRule} {sid ttlMin ttlMax : ℤ}
    {alertSrcIp : String} (hdrop : rule.action = .drop)
    (hok : (validateIntent py kb rule sid ttlMin ttlMax alertSrcIp).errors = []) :
    Placed rule.srcIp alertSrcIp ↔
      alertSrcIp ≠ "" ∧ strip alertSrcIp = alertSrcIp ∧ strip rule.srcIp = rule.srcIp ∧
        ZonePrefix rule.srcIp := by
  have hacc := accepted_of_validateIntent hdrop hok
  constructor
  · rintro ⟨⟨net, hnet, z, hsub, -⟩, leaf, hleaf, hroute⟩
    have hne : alertSrcIp ≠ "" := by
      rintro rfl
      have : ipToLeaf "" = none := by rfl
      rw [this] at hleaf
      simp at hleaf
    obtain ⟨a, _, ha, -, -⟩ := ipMatchesAlertSrc_eq_true (hacc.onTarget hne)
    refine ⟨hne, strip_eq_of_ipToLeaf hleaf ha, strip_eq_of_routed hroute, fun net' hnet' => ?_⟩
    rw [hnet] at hnet'
    simp only [Option.some.injEq] at hnet'
    subst hnet'
    exact (subset_zone_iff net.first_mem (hsub _ net.first_mem)).mp hsub
  · rintro ⟨hne, hstripA, hstripS, hlen⟩
    obtain ⟨a, net, ha, hnet, hin⟩ := ipMatchesAlertSrc_eq_true (hacc.onTarget hne)
    have hlen := hlen net hnet
    obtain ⟨z, hz⟩ := hacc.zone
    obtain ⟨b, hb, hbz⟩ := ipToZone_eq_some.mp hz
    -- The address before the slash is both in the zone and in the prefix.
    obtain ⟨b', hb', hbnet⟩ := mem_of_ipNetwork hnet
    rw [hstripS, hb, Option.some.injEq] at hb'
    subst hb'
    have hsub := (subset_zone_iff hbnet hbz).mpr hlen
    refine ⟨⟨net, hnet, z, hsub, fun z' hz' => zone_eq_of_subset hz' hsub⟩, z.leaf, ?_, ?_⟩
    · rw [hstripA] at ha
      rw [ipToLeaf_eq, ipToZone_eq_some.mpr ⟨a, ?_, hsub a hin⟩]
      · rfl
      · rw [(firstPart_of_ipAddress ha).2]
        exact ha
    · rw [hstripS] at hnet
      obtain ⟨n, hn, hbn, hnlen⟩ :=
        exists_pushed_network hnet hlen hb hbnet (hbz.1.trans z.network_shape.1)
      exact secure_ipToLeaf_of_subset hn ((subset_zone_iff hbn hbz).mpr hnlen)

/-- A rule that drops a source for the default time. -/
def dropRule (srcIp dstIp : String) : PolicyRule where
  ruleId := "agent-0"
  action := .drop
  srcIp := srcIp
  dstIp := dstIp
  dstPort := 0
  protocol := "tcp"
  priority := 50
  ttlSeconds := 3600
  comment := ""
  confidence := ⟨.fin (9 / 10), "0.9"⟩
  userNotification := {}

/-- A knowledge base with the actions of the agent, and nothing else. -/
def bareKnowledge : Knowledge where
  allowedAgentActions := ["DROP", "log_only"]
  policyMatrix := []
  recommendedResponse _ := none

/-- A host of the web zone, dropped as a `/32`, is placed. -/
theorem placed_iff_host : Placed "10.1.100.10/32" "10.1.100.10" := by
  refine (@placed_iff (.ascii (fun s => s) fun _ => none) bareKnowledge
    (dropRule "10.1.100.10/32" "") 9000001 60 3600 "10.1.100.10" rfl rfl).mpr
    ⟨by decide, by decide, by decide, fun net hnet => ?_⟩
  have hlen : (ipNetwork false (strip "10.1.100.10/32")).map Network.prefixlen = some 32 := by
    rfl
  rw [show strip "10.1.100.10/32" = strip (dropRule "10.1.100.10/32" "").srcIp from rfl, hnet,
    Option.map_some, Option.some.injEq] at hlen
  omega

/-- The validators accept a `DROP` of a `/16` around a host of the web zone, which lies in no
zone. -/
theorem exists_accepted_not_placed :
    ¬ ∀ (py : Py) (kb : Knowledge) (rule : PolicyRule) (sid ttlMin ttlMax : ℤ)
      (alertSrcIp : String), rule.action = .drop →
      (validateIntent py kb rule sid ttlMin ttlMax alertSrcIp).errors = [] →
      Placed rule.srcIp alertSrcIp := by
  intro h
  obtain ⟨⟨net, hnet, z, hsub, -⟩, -⟩ := h (.ascii (fun s => s) fun _ => none) bareKnowledge
    (dropRule "10.1.100.10/16" "") 9000001 60 3600 "10.1.100.10" rfl rfl
  have hlen : (ipNetwork false (strip "10.1.100.10/16")).map Network.prefixlen = some 16 := by
    rfl
  rw [show strip "10.1.100.10/16" = strip (dropRule "10.1.100.10/16" "").srcIp from rfl, hnet,
    Option.map_some, Option.some.injEq] at hlen
  have := (subset_zone_iff net.first_mem (hsub _ net.first_mem)).mp hsub
  omega

end ControlPlane.Intel
