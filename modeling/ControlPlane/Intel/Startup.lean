import ControlPlane.Intel.Placement

/-!
# The never-block lists at start-up

The model of what `main.py` does with the invariants when the service starts: they are parsed from
the knowledge files, replaced by what the graph database holds, and checked against a safety floor.
The guardrail does not read them. It has a list of its own (`Guardrails`), which lacks an entry of
the floor, so no knowledge base that passes the floor is guarded (`not_guarded_of_startup`).
-/

namespace ControlPlane.Intel

open Text Ip

/-- The tables of `core/invariants.py` that the start-up checks. -/
structure Invariants where
  /-- `NEVER_BLOCK_CIDRS`. -/
  neverBlockCidrs : List String

/-- `_SAFETY_FLOOR`. -/
def SAFETY_FLOOR : List String :=
  ["10.2.50.10/32", "192.168.122.205/32", "10.1.100.1/32", "10.1.200.1/32", "10.2.100.1/32",
    "10.2.50.1/32", "192.168.122.0/24"]

/-- `_SAFETY_FLOOR - set(NEVER_BLOCK_CIDRS)`. -/
def missing (inv : Invariants) : List String :=
  SAFETY_FLOOR.filter fun cidr => cidr ∉ inv.neverBlockCidrs

/-- The error of a knowledge base that misses the floor. -/
def floorError (py : Py) (inv : Invariants) : Exc :=
  let names := (missing inv).mergeSort fun a b => decide (a ≤ b)
  ⟨"RuntimeError", "Safety floor violated — Neo4j is missing critical NEVER_BLOCK CIDRs: ["
    ++ ", ".intercalate (names.map py.repr) ++ "]. Refusing to start (would risk blocking "
    ++ "crown-jewel infrastructure)."⟩

/-- The start-up, with the invariants parsed from the knowledge files and the outcome of reading the
graph database. A `RuntimeError` ends it; after any other error the parsed invariants are kept. -/
def startup (py : Py) (parsed : Invariants) (read : Except Exc Invariants) :
    Except Exc Invariants :=
  match read with
  | .ok inv => if missing inv = [] then .ok inv else .error (floorError py inv)
  | .error e => if e.name = "RuntimeError" then .error e else .ok parsed

/-- Every address of every never-block entry is protected, and no rule that has one as its source
or its destination passes the validators. -/
def Guarded (py : Py) (kb : Knowledge) (inv : Invariants) : Prop :=
  ∀ cidr ∈ inv.neverBlockCidrs, ∀ net, ipNetwork false cidr = some net → ∀ a : Address, a ∈ net →
    ∀ ip, ipAddress ip = some a → isProtectedIp ip = true ∧
      ∀ (rule : PolicyRule) (sid ttlMin ttlMax : ℤ) (alertSrcIp : String),
        rule.srcIp = ip ∨ rule.dstIp = ip →
        (validateIntent py kb rule sid ttlMin ttlMax alertSrcIp).errors ≠ []

/-- An entry of the floor is in every list that passes it. -/
theorem mem_of_missing_eq_nil {inv : Invariants} (h : missing inv = []) {cidr : String}
    (hc : cidr ∈ SAFETY_FLOOR) : cidr ∈ inv.neverBlockCidrs := by
  unfold missing at h
  have := List.filter_eq_nil_iff.mp h cidr hc
  simpa using this

/-- The entry of the floor that the guardrail does not protect. -/
theorem exists_floor_not_protected :
    ∃ cidr ∈ SAFETY_FLOOR, ∃ net a ip, ipNetwork false cidr = some net ∧ a ∈ net ∧
      ipAddress ip = some a ∧ isProtectedIp ip = false := by
  refine ⟨"10.2.50.10/32", by decide, ?_⟩
  have hnet : (ipNetwork false "10.2.50.10/32").isSome = true := rfl
  obtain ⟨net, hnet⟩ := Option.isSome_iff_exists.mp hnet
  obtain ⟨a, ha, hmem⟩ := mem_of_ipNetwork hnet
  exact ⟨net, a, firstPart '/' "10.2.50.10/32", hnet, hmem, ha, rfl⟩

/-- The floor holds after a start-up: it is checked on what was read from the graph database, and
has to be given for the parsed invariants that are kept otherwise. -/
theorem missing_of_startup {py : Py} {parsed inv : Invariants} {read : Except Exc Invariants}
    (hstart : startup py parsed read = .ok inv)
    (hparsed : ∀ e, read = .error e → missing parsed = []) : missing inv = [] := by
  unfold startup at hstart
  split at hstart
  · split_ifs at hstart with hfloor
    simp only [Except.ok.injEq] at hstart
    rw [← hstart]
    exact hfloor
  · next e =>
    split_ifs at hstart
    simp only [Except.ok.injEq] at hstart
    rw [← hstart]
    exact hparsed e rfl

/-- A list that passes the floor is not guarded. -/
theorem not_guarded_of_floor {py : Py} {kb : Knowledge} {inv : Invariants}
    (hfloor : missing inv = []) : ¬ Guarded py kb inv := by
  intro h
  obtain ⟨cidr, hc, net, a, ip, hnet, hmem, hip, hp⟩ := exists_floor_not_protected
  obtain ⟨hprot, -⟩ := h cidr (mem_of_missing_eq_nil hfloor hc) net hnet a hmem ip hip
  rw [hp] at hprot
  simp at hprot

/-- No state that the start-up reaches with the floor in place is guarded. -/
theorem not_guarded_of_startup {py : Py} {kb : Knowledge} {parsed inv : Invariants}
    {read : Except Exc Invariants} (hstart : startup py parsed read = .ok inv)
    (hparsed : ∀ e, read = .error e → missing parsed = []) : ¬ Guarded py kb inv :=
  not_guarded_of_floor (missing_of_startup hstart hparsed)

/-- The never-block list of the knowledge files. -/
def parsedInvariants : Invariants where
  neverBlockCidrs := ["127.0.0.0/8", "192.168.122.0/24", "10.10.6.0/24", "10.1.100.1/32",
    "10.1.200.1/32", "10.2.100.1/32", "10.2.50.1/32", "10.2.50.10/32", "192.168.122.205/32"]

/-- The start-up takes the knowledge files as they are. -/
theorem startup_parsed (py : Py) :
    startup py parsedInvariants (.ok parsedInvariants) = .ok parsedInvariants := by
  have hfloor : missing parsedInvariants = [] := by decide
  simp [startup, hfloor]

/-- The state that the knowledge files lead to is not guarded. -/
theorem not_guarded_of_startup_parsed :
    ¬ Guarded (.ascii (fun s => s) fun _ => none) bareKnowledge parsedInvariants :=
  not_guarded_of_startup (startup_parsed _) (by simp)

/-- With the knowledge files as they are, the management host is never-block and not protected. -/
theorem exists_startup_not_guarded :
    ¬ ∀ (py : Py) (kb : Knowledge) (parsed inv : Invariants) (read : Except Exc Invariants),
      startup py parsed read = .ok inv → (∀ e, read = .error e → missing parsed = []) →
      Guarded py kb inv := by
  intro h
  exact not_guarded_of_floor (by decide) (h (.ascii (fun s => s) fun _ => none) bareKnowledge
    parsedInvariants parsedInvariants (.ok parsedInvariants) (startup_parsed _) (by simp))

end ControlPlane.Intel
