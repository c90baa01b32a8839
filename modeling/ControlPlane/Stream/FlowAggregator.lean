import ControlPlane.Lib.Dict
import ControlPlane.Lib.Traverse
import ControlPlane.Stream.FlowIngest
import Mathlib.Data.List.Dedup

/-!
# The aggregation of a window

`aggregate_flows` groups the flows of a window by their addresses, and `suspect_score` rates each
pair of addresses. No two pairs of a window have the same addresses (`eq_of_mem_aggregateFlows`),
and a pair is made of exactly the flows between them (`mem_aggregateFlows`).
-/

namespace ControlPlane.Stream

open JsonText

variable {Obj : Type}

/-- What `float` raises. -/
inductive FloatError where
  /-- A `TypeError` or a `ValueError`. -/
  | typeOrValue
  /-- An `OverflowError`, for an integer beyond the range of floats. -/
  | overflow
  deriving DecidableEq

/-- What `ast.literal_eval` raises. -/
inductive LiteralError where
  /-- A `ValueError` or a `SyntaxError`. -/
  | valueOrSyntax
  /-- A `TypeError`, a `MemoryError` or a `RecursionError`. -/
  | other
  deriving DecidableEq

/-- The interpreter, as the batch pipeline meets it. -/
structure BatchTypes (Obj : Type) extends FlowTypes Obj where
  /-- `str(x)`; `none` is an exception. -/
  strOf : PyVal Obj → Option PyStr
  /-- `repr(s)`. -/
  reprStr : PyStr → PyStr
  /-- `s.lower()`. -/
  lower : PyStr → PyStr
  /-- `s.upper()`. -/
  upper : PyStr → PyStr
  /-- `bool(o)`. -/
  truth : Obj → Bool
  /-- `float(x)`. -/
  toFloatVal : PyVal Obj → Except FloatError JsonFloat
  /-- `ast.literal_eval(s)`. -/
  literalEval : PyStr → Except LiteralError (PyVal Obj)
  /-- An integer is what `int` makes of it. -/
  toInt_int : ∀ n, toInt (.int n) = some n
  /-- The limit for the digits of an integer cannot be set lower. -/
  digits_threshold : 640 ≤ maxDigits

/-- `AggregatedIPPair`. -/
structure AggregatedIPPair where
  srcIp : PyStr
  destIp : PyStr
  windowStart : PyStr
  windowEnd : PyStr
  flowCount : ℕ
  tcpFlowCount : ℕ
  udpFlowCount : ℕ
  pktsToserverSum : ℤ
  pktsToclientSum : ℤ
  bytesToserverSum : ℤ
  bytesToclientSum : ℤ
  pktsToserverMax : ℤ
  pktsToclientMax : ℤ
  bytesToserverMax : ℤ
  bytesToclientMax : ℤ
  uniqueDstPorts : List ℤ
  uniqueDstPortCount : ℕ
  uniqueAppProtos : List PyStr
  statesObserved : List PyStr
  srcZone : PyStr
  destZone : PyStr
  flowIds : List ℤ
  deriving DecidableEq

/-! ## The buckets -/

/-- The flows by their addresses; those without one are left out. -/
def buckets (flows : List (SuricataFlowEvent Obj)) :
    List ((PyStr × PyStr) × List (SuricataFlowEvent Obj)) :=
  Dict.group (fun k l => k = l)
    ((flows.filter fun f => f.srcIp ≠ [] ∧ f.destIp ≠ []).map fun f => ((f.srcIp, f.destIp), f))

/-- `sorted` of the set of these values. -/
def sortedSet {A : Type} [DecidableEq A] (le : A → A → Prop) [DecidableRel le] (xs : List A) :
    List A :=
  xs.dedup.insertionSort le

/-- `max(xs) if xs else 0`. -/
def maxOf : List ℤ → ℤ
  | [] => 0
  | x :: xs => xs.foldl max x

section

variable (B : BatchTypes Obj)

/-- A counter of the flow: `int(self.flow.get(key, 0))`. -/
def flowCounter (key : String) (f : SuricataFlowEvent Obj) : Option ℤ :=
  B.toInt (getD f.flow key (.int 0))

/-- `SuricataFlowEvent.pkts_toserver`. -/
def pktsToserver : SuricataFlowEvent Obj → Option ℤ := flowCounter B "pkts_toserver"

/-- `SuricataFlowEvent.pkts_toclient`. -/
def pktsToclient : SuricataFlowEvent Obj → Option ℤ := flowCounter B "pkts_toclient"

/-- `SuricataFlowEvent.bytes_toserver`. -/
def bytesToserver : SuricataFlowEvent Obj → Option ℤ := flowCounter B "bytes_toserver"

/-- `SuricataFlowEvent.bytes_toclient`. -/
def bytesToclient : SuricataFlowEvent Obj → Option ℤ := flowCounter B "bytes_toclient"

/-- `SuricataFlowEvent.flow_state`. -/
def flowState (f : SuricataFlowEvent Obj) : Option PyStr :=
  B.strOf (getD f.flow "state" (.str (u "unknown")))

/-- `(ip_to_zone(ip) if ip_to_zone else "") or ""`. -/
def zoneOf (ipToZone : Option (PyStr → Option PyStr)) (ip : PyStr) : PyStr :=
  (ipToZone.bind fun lookup => lookup ip).getD []

/-- What is aggregated from the flows between two addresses. Of its fields only the states come from
values that were not checked when the flows were made. -/
def aggregateBucket (windowStart windowEnd : PyStr) (ipToZone : Option (PyStr → Option PyStr))
    (key : PyStr × PyStr) (bucket : List (SuricataFlowEvent Obj)) : Option AggregatedIPPair := do
  let pktsTs ← bucket.mapM (pktsToserver B)
  let pktsTc ← bucket.mapM (pktsToclient B)
  let bytesTs ← bucket.mapM (bytesToserver B)
  let bytesTc ← bucket.mapM (bytesToclient B)
  let dstPorts := sortedSet (· ≤ ·) ((bucket.map (·.destPort)).filter (· ≠ 0))
  let appProtos := sortedSet (· ≤ ·) ((bucket.map (·.appProto)).filter (· ≠ []))
  let states ← bucket.mapM (flowState B)
  let states ← (sortedSet (· ≤ ·) states).mapM fun s => B.strField (.str s)
  return {
    srcIp := key.1, destIp := key.2, windowStart := windowStart, windowEnd := windowEnd
    flowCount := bucket.length
    tcpFlowCount := bucket.countP fun f => B.lower f.proto = u "tcp"
    udpFlowCount := bucket.countP fun f => B.lower f.proto = u "udp"
    pktsToserverSum := pktsTs.sum, pktsToclientSum := pktsTc.sum
    bytesToserverSum := bytesTs.sum, bytesToclientSum := bytesTc.sum
    pktsToserverMax := maxOf pktsTs, pktsToclientMax := maxOf pktsTc
    bytesToserverMax := maxOf bytesTs, bytesToclientMax := maxOf bytesTc
    uniqueDstPorts := dstPorts, uniqueDstPortCount := dstPorts.length
    uniqueAppProtos := appProtos, statesObserved := states
    srcZone := zoneOf ipToZone key.1, destZone := zoneOf ipToZone key.2
    flowIds := (bucket.map (·.flowId)).filter (· ≠ 0) }

/-- `aggregate_flows`. -/
def aggregateFlows (flows : List (SuricataFlowEvent Obj)) (windowStart windowEnd : PyStr)
    (ipToZone : Option (PyStr → Option PyStr)) : Option (List AggregatedIPPair) :=
  (buckets flows).mapM fun i => aggregateBucket B windowStart windowEnd ipToZone i.1 i.2

/-- `suspect_score`. -/
def suspectScore (pair : AggregatedIPPair) : ℕ :=
  let srcZ := B.upper pair.srcZone
  let dstZ := B.upper pair.destZone
  let adminPorts : List ℤ := [22, 3389, 5985, 5986]
  (if srcZ ≠ dstZ ∧ (dstZ = u "DB" ∨ dstZ = u "MGT") ∧ 1 < pair.flowCount then 2 else 0) +
    (if (pair.uniqueDstPorts.any fun p => p ∈ adminPorts) ∧ srcZ ≠ u "MGT" then 2 else 0) +
    (if 10 < pair.flowCount then 1 else 0) +
    (if 5 < pair.uniqueDstPortCount then 2 else 0) +
    (if srcZ = u "DB" ∧ dstZ ≠ [] ∧ dstZ ≠ u "DB" then 3 else 0)

end

/-! ## The pairs of a window -/

theorem equivalence_eq {K : Type} [DecidableEq K] :
    Equivalence fun k l : K => (fun k l => decide (k = l)) k l = true where
  refl k := by simp
  symm h := by simpa using (of_decide_eq_true h).symm
  trans h h' := by simpa using (of_decide_eq_true h).trans (of_decide_eq_true h')

section

variable {B : BatchTypes Obj} {flows : List (SuricataFlowEvent Obj)} {windowStart windowEnd : PyStr}
  {ipToZone : Option (PyStr → Option PyStr)}

/-- The bucket of two addresses has the flows between them. -/
theorem eq_of_mem_buckets {i : (PyStr × PyStr) × List (SuricataFlowEvent Obj)}
    (hi : i ∈ buckets flows) :
    i.2 = flows.filter fun f => f.srcIp ≠ [] ∧ f.destIp ≠ [] ∧ (f.srcIp, f.destIp) = i.1 := by
  unfold buckets at hi
  have hfound := Dict.lookup_of_mem equivalence_eq (Dict.distinct_group equivalence_eq _) hi
  have hgroup := Dict.lookup_group equivalence_eq
    ((flows.filter fun f => f.srcIp ≠ [] ∧ f.destIp ≠ []).map fun f => ((f.srcIp, f.destIp), f)) i.1
  rw [hfound, Option.getD_some] at hgroup
  rw [hgroup, List.filter_map, List.map_map, List.filter_filter]
  have hid : (Prod.snd ∘ fun f : SuricataFlowEvent Obj => ((f.srcIp, f.destIp), f)) = id := rfl
  rw [hid, List.map_id]
  refine List.filter_congr fun f _ => ?_
  rw [Bool.eq_iff_iff]
  simp only [Function.comp_apply, Bool.and_eq_true, decide_eq_true_eq]
  tauto

/-- A pair has the addresses of its bucket. -/
theorem addresses_of_aggregateBucket {key : PyStr × PyStr} {bucket : List (SuricataFlowEvent Obj)}
    {p : AggregatedIPPair}
    (h : aggregateBucket B windowStart windowEnd ipToZone key bucket = some p) :
    (p.srcIp, p.destIp) = key := by
  unfold aggregateBucket at h
  simp only [Option.bind_eq_bind, Option.bind_eq_some_iff, Option.pure_def, Option.some_inj] at h
  obtain ⟨pktsTs, -, pktsTc, -, bytesTs, -, bytesTc, -, states, -, states', -, rfl⟩ := h
  rfl

/-- A pair of a window is what is aggregated from all the flows between its addresses. -/
theorem eq_some_of_mem_aggregateFlows {pairs : List AggregatedIPPair} {p : AggregatedIPPair}
    (h : aggregateFlows B flows windowStart windowEnd ipToZone = some pairs) (hp : p ∈ pairs) :
    aggregateBucket B windowStart windowEnd ipToZone (p.srcIp, p.destIp)
      (flows.filter fun f => f.srcIp ≠ [] ∧ f.destIp ≠ [] ∧
        (f.srcIp, f.destIp) = (p.srcIp, p.destIp)) = some p := by
  obtain ⟨i, hi, hsome⟩ := exists_of_mem_mapM h hp
  rw [addresses_of_aggregateBucket hsome, ← eq_of_mem_buckets hi]
  exact hsome

/-- Two pairs of a window with the same addresses are one. -/
theorem eq_of_mem_aggregateFlows {pairs : List AggregatedIPPair} {p q : AggregatedIPPair}
    (h : aggregateFlows B flows windowStart windowEnd ipToZone = some pairs) (hp : p ∈ pairs)
    (hq : q ∈ pairs) (hsrc : p.srcIp = q.srcIp) (hdest : p.destIp = q.destIp) : p = q := by
  have hpsome := eq_some_of_mem_aggregateFlows h hp
  rw [hsrc, hdest] at hpsome
  exact Option.some_inj.mp (hpsome.symm.trans (eq_some_of_mem_aggregateFlows h hq))

/-- The score of a pair is at most 10. -/
theorem suspectScore_le (p : AggregatedIPPair) : suspectScore B p ≤ 10 := by
  unfold suspectScore
  dsimp only
  split_ifs <;> omega

end

end ControlPlane.Stream
