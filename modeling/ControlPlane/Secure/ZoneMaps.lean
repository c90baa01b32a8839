import ControlPlane.Intel.Topology
import ControlPlane.Secure.Zones

/-!
# The two zone maps

The intelligence layer routes a bare address by the zone around it, the Secure Framework a whole
prefix by the zone that contains it. The zones of the two are the same (`mem_zone_networks_iff`), so
they name one leaf for every IPv4 address and for every IPv4 prefix inside a zone
(`sameLeaf_of_ipv4`). The Secure Framework is handed texts that nobody has checked: of these, it
routes as it should all but the IPv6 networks, on which the lookup raises (`routes_iff`).
-/

namespace ControlPlane.Secure

open Ip Text

/-! ## The zones -/

/-- The zones of the Secure Framework are those of the intelligence layer, with the addresses of
their leaves. -/
theorem mem_zone_networks_iff {x : Network × String} :
    x ∈ ZONE_NETWORKS ↔ ∃ z : Intel.Zone, x = (z.network, z.leaf.sshHost) := by
  have hzones : ZONE_NETWORKS = [Intel.Zone.web, .db, .app, .mgt].map fun z =>
      (z.network, z.leaf.sshHost) := rfl
  rw [hzones, List.mem_map]
  constructor
  · rintro ⟨z, -, rfl⟩
    exact ⟨z, rfl⟩
  · rintro ⟨z, rfl⟩
    exact ⟨z, by cases z <;> simp, rfl⟩

/-- A text names a prefix inside a zone of the leaf, by the zones of the intelligence layer. -/
theorem inZone_iff_zone {src leaf : String} : InZone src leaf ↔ ∃ (net : Network) (z : Intel.Zone),
    ipNetwork false src = some net ∧ net.Subset z.network ∧ z.leaf.sshHost = leaf := by
  constructor
  · rintro ⟨net, zone, hnet, hmem, hsub⟩
    obtain ⟨z, hz⟩ := mem_zone_networks_iff.mp hmem
    obtain ⟨rfl, rfl⟩ := Prod.mk.inj hz
    exact ⟨net, z, hnet, hsub, rfl⟩
  · rintro ⟨net, z, hnet, hsub, rfl⟩
    exact ⟨net, z.network, hnet, mem_zone_networks_iff.mpr ⟨z, rfl⟩, hsub⟩

/-- The intelligence layer finds the leaf of the zone around the address before the slash. -/
theorem sshHost_eq_some {ip leaf : String} :
    (Intel.ipToLeaf ip).map Intel.Leaf.sshHost = some leaf ↔ ∃ (a : Address) (z : Intel.Zone),
      ipAddress (firstPart '/' ip) = some a ∧ a ∈ z.network ∧ z.leaf.sshHost = leaf := by
  rw [Intel.ipToLeaf_eq, Option.map_map, Option.map_eq_some_iff]
  constructor
  · rintro ⟨z, hz, rfl⟩
    obtain ⟨a, ha, hmem⟩ := Intel.ipToZone_eq_some.mp hz
    exact ⟨a, z, ha, hmem, rfl⟩
  · rintro ⟨a, z, ha, hmem, rfl⟩
    exact ⟨z, Intel.ipToZone_eq_some.mpr ⟨a, ha, hmem⟩, rfl⟩

/-! ## One leaf -/

/-- The two zone maps give one leaf, or none. -/
def SameTarget (ip : String) : Prop :=
  ipToLeaf ip = .ok ((Intel.ipToLeaf ip).map Intel.Leaf.sshHost)

/-- The lookup of an IPv4 prefix does not raise. -/
theorem exists_ipToLeaf {src : String} {net : Network} (hnet : ipNetwork false src = some net)
    (hv : net.version = .v4) : ∃ r, ipToLeaf src = .ok r := by
  unfold ipToLeaf
  rw [hnet]
  exact ⟨_, leafOf_eq hv zone_networks_version⟩

/-- The maps give one leaf for a prefix that does not cross the border of a zone. -/
theorem sameLeaf_of_uncrossed {src : String} {net : Network}
    (hnet : ipNetwork false src = some net) (hv : net.version = .v4)
    (hzone : ∀ a z, ipAddress (firstPart '/' src) = some a → a ∈ Intel.Zone.network z →
      net.Subset z.network) : SameTarget src := by
  obtain ⟨r, hr⟩ := exists_ipToLeaf hnet hv
  have hsome : ∀ leaf, r = some leaf ↔ (Intel.ipToLeaf src).map Intel.Leaf.sshHost = some leaf := by
    intro leaf
    have hleaf : r = some leaf ↔ InZone src leaf := by
      rw [inZone_iff, hr, Except.ok.injEq]
    rw [hleaf, inZone_iff_zone, sshHost_eq_some]
    constructor
    · rintro ⟨net', z, hnet', hsub, rfl⟩
      obtain ⟨a, ha, hmem⟩ := mem_of_ipNetwork hnet'
      exact ⟨a, z, ha, hsub a hmem, rfl⟩
    · rintro ⟨a, z, ha, hmem, rfl⟩
      exact ⟨net, z, hnet, hzone a z ha hmem, rfl⟩
  unfold SameTarget
  rw [hr, Option.ext fun leaf => hsome leaf]

/-- The maps give one leaf, or none, for every IPv4 address, and one leaf for every IPv4 prefix
inside a zone. -/
theorem sameLeaf_of_ipv4 (src : String) :
    (∀ a, ipv4Address src = some a → SameTarget src) ∧
      ∀ (net : Network) (z : Intel.Zone), ipNetwork false src = some net → net.version = .v4 →
        net.Subset z.network → SameTarget src ∧ ipToLeaf src = .ok (some z.leaf.sshHost) := by
  constructor
  · intro a ha
    obtain ⟨⟨net, hnet, hlen, hmem⟩, -⟩ := ipNetwork_host ha
    have hva : a.version = .v4 := (ipv4Address_eq_some ha).1
    refine sameLeaf_of_uncrossed hnet (hmem.1.symm.trans hva) fun b z hb hbz => ?_
    -- the address is the only one of its prefix
    obtain ⟨b', hb', hbn⟩ := mem_of_ipNetwork hnet
    obtain rfl := Option.some_inj.mp (hb.symm.trans hb')
    refine (Network.subset_iff_prefixlen_le hbn hbz).mpr ?_
    rw [hlen, (z.network_shape).2]
    decide
  · intro net z hnet hv hsub
    have hin : InZone src z.leaf.sshHost := inZone_iff_zone.mpr ⟨net, z, hnet, hsub, rfl⟩
    refine ⟨sameLeaf_of_uncrossed hnet hv fun a z' ha hmem => ?_, inZone_iff.mp hin⟩
    obtain ⟨a', ha', hmem'⟩ := mem_of_ipNetwork hnet
    obtain rfl := Option.some_inj.mp (ha.symm.trans ha')
    rw [← Intel.Zone.eq_of_mem (hsub a hmem') hmem]
    exact hsub

/-- An address and a prefix of the web zone. -/
theorem sameLeaf_web :
    SameTarget "10.1.100.7" ∧ SameTarget "10.1.100.0/25" ∧
      ipToLeaf "10.1.100.0/25" = .ok (some "192.168.122.20") := by
  have haddr : (ipv4Address "10.1.100.7").isSome = true := rfl
  have hnet : (ipNetwork false "10.1.100.0/25").isSome = true := rfl
  obtain ⟨a, ha⟩ := Option.isSome_iff_exists.mp haddr
  obtain ⟨net, hnet⟩ := Option.isSome_iff_exists.mp hnet
  have hsub : net.version = .v4 ∧ net.subnetOf Intel.Zone.web.network = some true := by
    have h : ∀ n ∈ ipNetwork false "10.1.100.0/25",
        n.version = .v4 ∧ n.subnetOf Intel.Zone.web.network = some true := by
      decide +kernel
    exact h net hnet
  exact ⟨(sameLeaf_of_ipv4 _).1 a ha, (sameLeaf_of_ipv4 _).2 net .web hnet hsub.1
    (Network.subnetOf_eq_some_true.mp hsub.2)⟩

/-! ## Unchecked texts -/

/-- The lookup returns, and it returns a leaf exactly for a network inside a zone of the leaf. -/
def Routes (src : String) : Prop :=
  ∃ r, ipToLeaf src = .ok r ∧ ∀ leaf, r = some leaf ↔ InZone src leaf

/-- A text that denotes an IPv6 network. -/
def IsIpv6 (src : String) : Prop := ∃ net, ipNetwork false src = some net ∧ net.version = .v6

/-- A network of the other version cannot be compared with a zone. -/
theorem leafOf_ipv6 {net : Network} (hv : net.version = .v6) :
    ∃ e, leafOf net ZONE_NETWORKS = .error e := by
  have hzones : ∃ x rest, ZONE_NETWORKS = x :: rest := by
    have hne : ZONE_NETWORKS ≠ [] := List.cons_ne_nil _ _
    exact List.exists_cons_of_ne_nil hne
  obtain ⟨⟨zone, leaf⟩, rest, hzones⟩ := hzones
  have hzone : zone.version = .v4 :=
    zone_networks_version (zone, leaf) (hzones ▸ List.mem_cons_self)
  have hnone : net.subnetOf zone = none := by
    unfold Network.subnetOf
    rw [hv, hzone]
    exact if_neg (by decide)
  rw [hzones, leafOf, hnone]
  exact ⟨_, rfl⟩

/-- The lookup routes every text except the IPv6 networks. -/
theorem routes_iff (src : String) : Routes src ↔ ¬ IsIpv6 src := by
  constructor
  · rintro ⟨r, hr, -⟩ ⟨net, hnet, hv⟩
    obtain ⟨e, he⟩ := leafOf_ipv6 hv
    unfold ipToLeaf at hr
    rw [hnet] at hr
    exact absurd (he.symm.trans hr) (by simp)
  · intro h
    have hr : ∃ r, ipToLeaf src = .ok r := by
      cases hnet : ipNetwork false src with
      | none =>
        unfold ipToLeaf
        rw [hnet]
        exact ⟨none, rfl⟩
      | some net =>
        refine exists_ipToLeaf hnet ?_
        cases hv : net.version with
        | v4 => rfl
        | v6 => exact absurd ⟨net, hnet, hv⟩ h
    obtain ⟨r, hr⟩ := hr
    refine ⟨r, hr, fun leaf => ?_⟩
    rw [inZone_iff, hr, Except.ok.injEq]

/-- The lookup raises on the loopback address of IPv6. -/
theorem exists_not_routes : ¬ ∀ src, Routes src := by
  intro h
  obtain ⟨r, hr, -⟩ := h "::1"
  have herror : (match ipToLeaf "::1" with | .ok _ => true | .error _ => false) = false := rfl
  rw [hr] at herror
  cases herror

end ControlPlane.Secure
