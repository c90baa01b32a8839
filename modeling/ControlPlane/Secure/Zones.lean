import ControlPlane.Lib.Ipaddress
import ControlPlane.Lib.Json

/-!
# Zone routing in the Secure Framework

The zone map of `nos_gnmi_pool.py`. `ipToLeaf` reads a whole prefix, with host bits allowed, and
looks for the zone that contains it. A prefix of the other version makes the comparison raise.

The zones do not overlap, so the lookup answers a leaf exactly for the prefixes inside a zone of the
leaf (`inZone_iff`).
-/

namespace ControlPlane.Secure

open Ip

/-- `ZONE_TO_LEAF`. -/
def ZONE_TO_LEAF : List (String × String) :=
  [("10.1.100.0/24", "192.168.122.20"), ("10.1.200.0/24", "192.168.122.20"),
    ("10.2.100.0/24", "192.168.122.21"), ("10.2.50.0/24", "192.168.122.21")]

/-- The networks of the keys of `ZONE_TO_LEAF`, each with its leaf. -/
def zoneNetworks : Option (List (Network × String)) :=
  ZONE_TO_LEAF.mapM fun x => (ipNetwork true x.1).map fun zone => (zone, x.2)

/-- Every key of `ZONE_TO_LEAF` is a network. -/
theorem zoneNetworks_isSome : zoneNetworks.isSome = true := by
  rfl

/-- `_ZONE_NETWORKS`. -/
def ZONE_NETWORKS : List (Network × String) := zoneNetworks.get zoneNetworks_isSome

/-- `DEFAULT_LEAF1`. -/
def DEFAULT_LEAF1 : String := "192.168.122.20"

/-- `DEFAULT_LEAF2`. -/
def DEFAULT_LEAF2 : String := "192.168.122.21"

/-- The loop of `ip_to_leaf` over the zones. -/
def leafOf (net : Network) : List (Network × String) → Except Exc (Option String)
  | [] => .ok none
  | (zone, leaf) :: rest =>
    match net.subnetOf zone with
    | none => .error ⟨"TypeError", net.str ++ " and " ++ zone.str ++ " are not of the same version"⟩
    | some true => .ok (some leaf)
    | some false => leafOf net rest

/-- `ip_to_leaf`. -/
def ipToLeaf (src : String) : Except Exc (Option String) :=
  match ipNetwork false src with
  | none => .ok none
  | some net => leafOf net ZONE_NETWORKS

/-- Every zone is an IPv4 network. -/
theorem zone_networks_version : ∀ x ∈ ZONE_NETWORKS, x.1.version = .v4 := by
  decide

/-- Among IPv4 zones, the loop finds the first that contains an IPv4 network. -/
theorem leafOf_eq {net : Network} (hv : net.version = .v4) {zones : List (Network × String)}
    (hz : ∀ x ∈ zones, x.1.version = .v4) :
    leafOf net zones =
      .ok ((zones.find? fun x => net.subnetOf x.1 == some true).map Prod.snd) := by
  induction zones with
  | nil => rfl
  | cons x rest ih =>
    obtain ⟨zone, leaf⟩ := x
    have hsame : net.version = zone.version := hv.trans (hz (zone, leaf) (by simp)).symm
    have hsome : ∃ b, net.subnetOf zone = some b := by
      unfold Network.subnetOf
      exact ⟨_, if_pos hsame⟩
    obtain ⟨b, hb⟩ := hsome
    rw [leafOf, hb, List.find?_cons]
    simp only [hb]
    cases b with
    | true => rfl
    | false => exact ih fun y hy => hz y (by simp [hy])

/-- A network for which the loop finds a leaf has the version of the zones. -/
theorem version_of_leafOf {net : Network} {leaf : String} {zones : List (Network × String)}
    (hz : ∀ x ∈ zones, x.1.version = .v4) (h : leafOf net zones = .ok (some leaf)) :
    net.version = .v4 := by
  cases zones with
  | nil => simp [leafOf] at h
  | cons x rest =>
    obtain ⟨zone, l⟩ := x
    by_contra hv
    have hnone : net.subnetOf zone = none := by
      unfold Network.subnetOf
      rw [hz (zone, l) (by simp)]
      exact if_neg hv
    simp [leafOf, hnone] at h

/-- The lookup of an IPv4 prefix answers a leaf when a zone that contains the prefix has it. -/
theorem ipToLeaf_eq_some {src leaf : String} {net : Network} (hnet : ipNetwork false src = some net)
    (hv : net.version = .v4) :
    ipToLeaf src = .ok (some leaf) ↔
      ∃ zone, ZONE_NETWORKS.find? (fun x => net.subnetOf x.1 == some true) = some (zone, leaf) := by
  rw [ipToLeaf, hnet]
  simp only
  rw [leafOf_eq hv zone_networks_version]
  simp

/-- A text names a prefix that lies inside a zone of the leaf. -/
def InZone (src leaf : String) : Prop :=
  ∃ net zone, ipNetwork false src = some net ∧ (zone, leaf) ∈ ZONE_NETWORKS ∧ net.Subset zone

/-- Every zone has 256 addresses. -/
theorem zone_networks_host : ∀ x ∈ ZONE_NETWORKS, x.1.block.host = 8 := by
  decide

/-- Zones that share a block of 256 addresses have one leaf. -/
theorem zone_networks_leaf : ∀ x ∈ ZONE_NETWORKS, ∀ y ∈ ZONE_NETWORKS,
    x.1.block.base / 2^8 = y.1.block.base / 2^8 → x.2 = y.2 := by
  decide

/-- The zones that contain a network have one leaf. -/
theorem leaf_eq_of_subset {net : Network} {x y : Network × String} (hx : x ∈ ZONE_NETWORKS)
    (hy : y ∈ ZONE_NETWORKS) (hnx : net.Subset x.1) (hny : net.Subset y.1) : x.2 = y.2 := by
  -- Any address of the network will do; take the first.
  have hmx := Cidr.Block.mem_iff_div_eq.mp (Network.mem_def.mp (hnx _ net.first_mem)).2
  have hmy := Cidr.Block.mem_iff_div_eq.mp (Network.mem_def.mp (hny _ net.first_mem)).2
  rw [zone_networks_host x hx] at hmx
  rw [zone_networks_host y hy] at hmy
  exact zone_networks_leaf x hx y hy (hmx.symm.trans hmy)

/-- The lookup answers a leaf exactly for the prefixes inside a zone of the leaf. -/
theorem inZone_iff {src leaf : String} : InZone src leaf ↔ ipToLeaf src = .ok (some leaf) := by
  constructor
  · rintro ⟨net, zone, hnet, hmem, hsub⟩
    have hv : net.version = .v4 :=
      (Network.version_eq_of_subset hsub).trans (zone_networks_version _ hmem)
    rw [ipToLeaf_eq_some hnet hv]
    have hany : (ZONE_NETWORKS.find? fun x => net.subnetOf x.1 == some true).isSome = true := by
      rw [List.find?_isSome]
      exact ⟨_, hmem, by simpa using Network.subnetOf_eq_some_true.mpr hsub⟩
    obtain ⟨⟨zone', leaf'⟩, hfind⟩ := Option.isSome_iff_exists.mp hany
    have hsub' := Network.subnetOf_eq_some_true.mp (by simpa using List.find?_some hfind)
    -- The zone that is found first may be another one than the given, but it has the same leaf.
    obtain rfl : leaf' = leaf :=
      leaf_eq_of_subset (List.mem_of_find?_eq_some hfind) hmem hsub' hsub
    exact ⟨zone', hfind⟩
  · intro h
    obtain ⟨net, hnet⟩ : ∃ net, ipNetwork false src = some net := by
      unfold ipToLeaf at h
      split at h
      · simp at h
      · next net hnet => exact ⟨net, hnet⟩
    have hv : net.version = .v4 := by
      rw [ipToLeaf, hnet] at h
      exact version_of_leafOf zone_networks_version h
    obtain ⟨zone, hfind⟩ := (ipToLeaf_eq_some hnet hv).mp h
    exact ⟨net, zone, hnet, List.mem_of_find?_eq_some hfind,
      Network.subnetOf_eq_some_true.mp (by simpa using List.find?_some hfind)⟩

end ControlPlane.Secure
