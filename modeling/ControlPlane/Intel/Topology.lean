import ControlPlane.Lib.Ipaddress

/-!
# The zones and leaves of the data plane

The model of `core/topology.py`: four zones, each a `/24` behind one of two leaves. `ipToZone` reads
the address before a slash and looks for the zone around it; `ipToLeaf` goes on to the leaf that
enforces the zone.

The zones are disjoint (`Zone.eq_of_mem`), so the lookup finds a zone exactly when the address is in
it (`ipToZone_eq_some`).
-/

namespace ControlPlane.Intel

open Text Ip

/-- The keys of `ZONES`. -/
inductive Zone where
  | web
  | db
  | app
  | mgt
  deriving DecidableEq

/-- The keys of `LEAFS`. -/
inductive Leaf where
  | leaf1
  | leaf2
  deriving DecidableEq

namespace Zone

/-- The name of a zone. -/
def name : Zone → String
  | web => "WEB"
  | db => "DB"
  | app => "APP"
  | mgt => "MGT"

/-- `ZONES[zone]["cidr"]`. -/
def cidr : Zone → String
  | web => "10.1.100.0/24"
  | db => "10.1.200.0/24"
  | app => "10.2.100.0/24"
  | mgt => "10.2.50.0/24"

/-- The prefix of a zone is a network. -/
theorem cidr_isSome (z : Zone) : (ipNetwork true z.cidr).isSome = true := by
  cases z
  all_goals decide +kernel

/-- `ipaddress.ip_network(ZONES[zone]["cidr"])`. -/
def network (z : Zone) : Network := (ipNetwork true z.cidr).get z.cidr_isSome

end Zone

/-- The zones in the order of `ZONES`. -/
def ZONES : List Zone := [.web, .db, .app, .mgt]

namespace Leaf

/-- `LEAFS[leaf]["ssh_host"]`, the management address. -/
def sshHost : Leaf → String
  | leaf1 => "192.168.122.20"
  | leaf2 => "192.168.122.21"

/-- `LEAFS[leaf]["zones"]`. -/
def zones : Leaf → List Zone
  | leaf1 => [.web, .db]
  | leaf2 => [.app, .mgt]

end Leaf

/-- The leaves in the order of `LEAFS`. -/
def LEAFS : List Leaf := [.leaf1, .leaf2]

/-- `ip_to_zone`. -/
def ipToZone (ip : String) : Option Zone :=
  match ipAddress (firstPart '/' ip) with
  | none => none
  | some addr => ZONES.find? fun zone => decide (addr ∈ zone.network)

/-- `ip_to_leaf`. -/
def ipToLeaf (ip : String) : Option Leaf :=
  match ipToZone ip with
  | none => none
  | some zone => LEAFS.find? fun leaf => decide (zone ∈ leaf.zones)

/-! ## What the lookups find -/

namespace Zone

/-- Every zone is an IPv4 `/24`. -/
theorem network_shape (z : Zone) :
    z.network.version = .v4 ∧ z.network.prefixlen = 24 := by
  cases z
  all_goals decide +kernel

/-- The addresses of a zone, by their bounds. -/
theorem mem_network {z : Zone} {a : Address} (h : a ∈ z.network) :
    z.network.base ≤ a.val ∧ a.val < z.network.base + 256 := by
  obtain ⟨hv, hp⟩ := z.network_shape
  obtain ⟨-, hlo, hhi⟩ := Network.mem_iff.mp h
  rw [hv, hp] at hhi
  have hsize : 2^(Version.v4.width - 24) - 1 = 255 := rfl
  omega

/-- The first addresses of the zones. -/
theorem network_base (z : Zone) : z.network.base = match z with
    | web => 167863296
    | db => 167888896
    | app => 167928832
    | mgt => 167916032 := by
  cases z
  all_goals decide +kernel

/-- The zones are disjoint. -/
theorem eq_of_mem {z z' : Zone} {a : Address} (h : a ∈ z.network) (h' : a ∈ z'.network) :
    z = z' := by
  have h1 := mem_network h
  have h2 := mem_network h'
  rw [network_base] at h1 h2
  cases z
  all_goals
    cases z'
    all_goals first | rfl | (simp only at h1 h2; omega)

end Zone

/-- The zone found is the one around the address before the slash. -/
theorem ipToZone_eq_some {ip : String} {z : Zone} :
    ipToZone ip = some z ↔ ∃ a, ipAddress (firstPart '/' ip) = some a ∧ a ∈ z.network := by
  have hz : ∀ z, z ∈ ZONES := fun z => by cases z <;> simp [ZONES]
  unfold ipToZone
  constructor
  · intro h
    split at h
    · simp at h
    · next a ha => exact ⟨a, ha, by simpa using List.find?_some h⟩
  · rintro ⟨a, ha, hmem⟩
    simp only [ha]
    -- The first zone that fits is the only one that does.
    cases hf : ZONES.find? fun zone => decide (a ∈ zone.network) with
    | none =>
      have := List.find?_eq_none.mp hf z (hz z)
      simp [hmem] at this
    | some z' =>
      have h' : a ∈ z'.network := by simpa using List.find?_some hf
      rw [Zone.eq_of_mem hmem h']

/-- The leaf behind a zone. -/
def Zone.leaf : Zone → Leaf
  | .web | .db => .leaf1
  | .app | .mgt => .leaf2

/-- The leaf found is the one behind the zone found. -/
theorem ipToLeaf_eq (ip : String) : ipToLeaf ip = (ipToZone ip).map Zone.leaf := by
  unfold ipToLeaf
  cases ipToZone ip with
  | none => rfl
  | some z => cases z <;> rfl

end ControlPlane.Intel
