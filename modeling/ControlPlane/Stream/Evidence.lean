import ControlPlane.Stream.Conservation

/-!
# More evidence

What more flows between two addresses do to the record of these addresses. Whatever stops the
aggregation is one flow that cannot be read (`aggregateFlows_isSome_iff`), so a window that is
aggregated with more flows is aggregated without them, and their record only gains
(`gains_of_perm`): its score is not lower, and neither is the severity of its alert
(`moreSuspicious_of_aggregateFlows`). A flow that cannot be read takes the whole window with it
(`exists_evidence_lost`).
-/

namespace ControlPlane.Stream

open JsonText

variable {Obj : Type}

/-! ## Flows that can be read -/

/-- The counters of a flow are read, and a record may hold its state. -/
def Readable (B : BatchTypes Obj) (f : SuricataFlowEvent Obj) : Prop :=
  (pktsToserver B f).isSome = true ∧ (pktsToclient B f).isSome = true ∧
    (bytesToserver B f).isSome = true ∧ (bytesToclient B f).isSome = true ∧
    ∃ s, flowState B f = some s ∧ (B.strField (.str s)).isSome = true

section

variable {B : BatchTypes Obj} {flows : List (SuricataFlowEvent Obj)} {windowStart windowEnd : PyStr}
  {ipToZone : Option (PyStr → Option PyStr)} {key : PyStr × PyStr}

/-- The states of flows have their fields exactly when each of them has one. -/
theorem fields_isSome_iff {bucket : List (SuricataFlowEvent Obj)} :
    ((bucket.mapM (flowState B)).bind fun states =>
        (sortedSet (· ≤ ·) states).mapM fun s => B.strField (.str s)).isSome = true ↔
      ∀ f ∈ bucket, ∃ s, flowState B f = some s ∧ (B.strField (.str s)).isSome = true := by
  constructor
  · intro h f hf
    obtain ⟨fields, hfields⟩ := Option.isSome_iff_exists.mp h
    obtain ⟨states, hstates, hfields⟩ := Option.bind_eq_some_iff.mp hfields
    obtain ⟨s, hs, hsome⟩ := exists_mem_of_mapM hstates hf
    have hall := mapM_isSome.mp (Option.isSome_iff_exists.mpr ⟨fields, hfields⟩)
    exact ⟨s, hsome, hall s (((lists_sortedSet states).2 s).mpr hs)⟩
  · intro h
    have hread : (bucket.mapM (flowState B)).isSome = true := mapM_isSome.mpr fun f hf => by
      obtain ⟨s, hs, -⟩ := h f hf
      rw [hs]
      rfl
    obtain ⟨states, hstates⟩ := Option.isSome_iff_exists.mp hread
    rw [hstates, Option.bind_some]
    refine mapM_isSome.mpr fun s hs => ?_
    obtain ⟨f, hf, hsome⟩ := exists_of_mem_mapM hstates (((lists_sortedSet states).2 s).mp hs)
    obtain ⟨s', hs', hfield⟩ := h f hf
    obtain rfl := Option.some_inj.mp (hs'.symm.trans hsome)
    exact hfield

/-- The flows of a bucket are aggregated exactly when each of them can be read. -/
theorem aggregateBucket_isSome_iff {bucket : List (SuricataFlowEvent Obj)} :
    (aggregateBucket B windowStart windowEnd ipToZone key bucket).isSome = true ↔
      ∀ f ∈ bucket, Readable B f := by
  have hsplit : (aggregateBucket B windowStart windowEnd ipToZone key bucket).isSome = true ↔
      (bucket.mapM (pktsToserver B)).isSome = true ∧ (bucket.mapM (pktsToclient B)).isSome = true ∧
      (bucket.mapM (bytesToserver B)).isSome = true ∧
      (bucket.mapM (bytesToclient B)).isSome = true ∧
      ((bucket.mapM (flowState B)).bind fun states =>
        (sortedSet (· ≤ ·) states).mapM fun s => B.strField (.str s)).isSome = true := by
    unfold aggregateBucket
    cases bucket.mapM (pktsToserver B) with
    | none => simp
    | some pktsTs =>
      cases bucket.mapM (pktsToclient B) with
      | none => simp
      | some pktsTc =>
        cases bucket.mapM (bytesToserver B) with
        | none => simp
        | some bytesTs =>
          cases bucket.mapM (bytesToclient B) with
          | none => simp
          | some bytesTc =>
            cases bucket.mapM (flowState B) with
            | none => simp
            | some states =>
              cases hfields : (sortedSet (· ≤ ·) states).mapM fun s => B.strField (.str s) <;>
                simp [hfields]
  rw [hsplit, mapM_isSome, mapM_isSome, mapM_isSome, mapM_isSome, fields_isSome_iff]
  simp only [← forall₂_and]
  rfl

/-- A window is aggregated exactly when each flow with both addresses can be read. -/
theorem aggregateFlows_isSome_iff :
    (aggregateFlows B flows windowStart windowEnd ipToZone).isSome = true ↔
      ∀ f ∈ addressed flows, Readable B f := by
  have hbuckets : (aggregateFlows B flows windowStart windowEnd ipToZone).isSome = true ↔
      ∀ i ∈ buckets flows, ∀ f ∈ i.2, Readable B f := by
    unfold aggregateFlows
    rw [mapM_isSome]
    exact forall₂_congr fun i _ => aggregateBucket_isSome_iff
  rw [hbuckets]
  constructor
  · intro h f hf
    obtain ⟨i, hi, hfi⟩ := List.mem_flatMap.mp ((perm_flatMap_buckets flows).mem_iff.mpr hf)
    exact h i hi f hfi
  · intro h i hi f hf
    exact h f ((perm_flatMap_buckets flows).mem_iff.mp (List.mem_flatMap.mpr ⟨i, hi, hf⟩))

end

/-! ## What a record gains -/

/-- A record of the same addresses that has at least as much to show. -/
structure Gains (p q : AggregatedIPPair) : Prop where
  srcZone : q.srcZone = p.srcZone
  destZone : q.destZone = p.destZone
  flowCount : p.flowCount ≤ q.flowCount
  uniqueDstPorts : p.uniqueDstPorts ⊆ q.uniqueDstPorts
  uniqueDstPortCount : p.uniqueDstPortCount ≤ q.uniqueDstPortCount

/-- A sorted set of some of the values is not longer. -/
theorem length_sortedSet_le {A : Type} [LinearOrder A] [DecidableEq A] {xs ys : List A}
    (h : xs ⊆ ys) : (sortedSet (· ≤ ·) xs).length ≤ (sortedSet (· ≤ ·) ys).length := by
  have hnodup : (sortedSet (· ≤ ·) xs).Nodup :=
    (List.perm_insertionSort _ _).nodup_iff.mpr (List.nodup_dedup xs)
  have hsub : sortedSet (· ≤ ·) xs ⊆ sortedSet (· ≤ ·) ys := fun x hx =>
    ((lists_sortedSet ys).2 x).mpr (h (((lists_sortedSet xs).2 x).mp hx))
  exact (List.subperm_of_subset hnodup hsub).length_le

section

variable {B : BatchTypes Obj} {windowStart windowEnd : PyStr}
  {ipToZone : Option (PyStr → Option PyStr)} {key : PyStr × PyStr}

/-- More flows of a bucket are a gain. -/
theorem gains_of_subperm {bucket bucket' : List (SuricataFlowEvent Obj)} {p q : AggregatedIPPair}
    (hsub : bucket.Subperm bucket')
    (hp : aggregateBucket B windowStart windowEnd ipToZone key bucket = some p)
    (hq : aggregateBucket B windowStart windowEnd ipToZone key bucket' = some q) : Gains p q := by
  have hports : ((bucket.map (·.destPort)).filter (· ≠ 0)) ⊆
      ((bucket'.map (·.destPort)).filter (· ≠ 0)) := by
    intro n hn
    obtain ⟨hmem, hne⟩ := List.mem_filter.mp hn
    exact List.mem_filter.mpr ⟨List.map_subset _ hsub.subset hmem, hne⟩
  unfold aggregateBucket at hp hq
  simp only [Option.bind_eq_bind, Option.bind_eq_some_iff, Option.pure_def, Option.some_inj]
    at hp hq
  obtain ⟨pktsTs, -, pktsTc, -, bytesTs, -, bytesTc, -, states, -, fields, -, rfl⟩ := hp
  obtain ⟨pktsTs', -, pktsTc', -, bytesTs', -, bytesTc', -, states', -, fields', -, rfl⟩ := hq
  constructor
  · rfl
  · rfl
  · exact hsub.length_le
  · exact fun n hn => ((lists_sortedSet _).2 n).mpr (hports (((lists_sortedSet _).2 n).mp hn))
  · exact length_sortedSet_le hports

/-- The record of a window with more flows between its addresses is a gain. -/
theorem gains_of_perm {flows extra longer : List (SuricataFlowEvent Obj)}
    {pairs pairs' : List AggregatedIPPair} (hlonger : longer.Perm (flows ++ extra))
    (hpairs : aggregateFlows B flows windowStart windowEnd ipToZone = some pairs)
    (hpairs' : aggregateFlows B longer windowStart windowEnd ipToZone = some pairs')
    {p : AggregatedIPPair} (hp : p ∈ pairs) :
    ∃ q ∈ pairs', q.addresses = p.addresses ∧ Gains p q := by
  obtain ⟨i, hi, hbucket⟩ := exists_of_mem_mapM hpairs hp
  have haddresses : p.addresses = i.1 := addresses_of_aggregateBucket hbucket
  -- the longer window has a bucket of these addresses
  have hkey : i.1 ∈ keysOf longer := by
    obtain ⟨hsrc, hdest, f, hf, hfkey⟩ := mem_keysOf.mp (List.mem_map_of_mem hi)
    exact mem_keysOf.mpr
      ⟨hsrc, hdest, f, hlonger.mem_iff.mpr (List.mem_append_left _ hf), hfkey⟩
  obtain ⟨j, hj, hjkey⟩ := List.mem_map.mp hkey
  obtain ⟨q, hq, hbucket'⟩ := exists_mem_of_mapM hpairs' hj
  have haddresses' : q.addresses = j.1 := addresses_of_aggregateBucket hbucket'
  refine ⟨q, hq, ?_, ?_⟩
  · rw [haddresses', haddresses, hjkey]
  · have hflows : i.2 = between flows i.1 := eq_of_mem_buckets hi
    have hflows' : j.2 = between longer j.1 := eq_of_mem_buckets hj
    have hsub : (between flows i.1).Subperm (between longer i.1) := by
      have happend : between (flows ++ extra) i.1 = between flows i.1 ++ between extra i.1 :=
        List.filter_append ..
      refine List.Subperm.trans ?_ (between_perm hlonger i.1).symm.subperm
      rw [happend]
      exact (List.sublist_append_left _ _).subperm
    rw [hflows] at hbucket
    rw [hflows', hjkey] at hbucket'
    exact gains_of_subperm hsub hbucket hbucket'

end

/-! ## What a gain does to the score and the alert -/

section

variable (B : BatchTypes Obj)

/-- An alert whose severity number is not larger. -/
def AtLeastAsSevere (b a : SuricataAlert Obj) : Prop :=
  ∃ m n : ℤ, getD b.alert "severity" (.int 4) = .int m ∧
    getD a.alert "severity" (.int 4) = .int n ∧ m ≤ n

/-- A record whose score is not lower, and whose alert for a label is at least as severe, with the
score itself or with the one that a dispatcher gives it. -/
def MoreSuspicious (p q : AggregatedIPPair) : Prop :=
  suspectScore B p ≤ suspectScore B q ∧
    ∀ cls cls' : Option Classification, labelOf cls = labelOf cls' →
      (∀ a b, buildSyntheticAlert B p (suspectScore B p) cls = some a →
        buildSyntheticAlert B q (suspectScore B q) cls' = some b → AtLeastAsSevere b a) ∧
      ∀ D a b, buildSyntheticAlert B p (dispatchScore B D p) cls = some a →
        buildSyntheticAlert B q (dispatchScore B D q) cls' = some b → AtLeastAsSevere b a

variable {B}

/-- A signal that is not lost counts as much. -/
theorem signal_le {P Q : Prop} [Decidable P] [Decidable Q] (n : ℕ) (h : P → Q) :
    (if P then n else 0) ≤ if Q then n else 0 := by
  by_cases hp : P
  · rw [if_pos hp, if_pos (h hp)]
  · rw [if_neg hp]
    exact Nat.zero_le _

theorem Gains.suspectScore_le {p q : AggregatedIPPair} (h : Gains p q) :
    suspectScore B p ≤ suspectScore B q := by
  have hcount := h.flowCount
  have hports := h.uniqueDstPortCount
  unfold suspectScore
  dsimp only
  rw [h.srcZone, h.destZone]
  apply Nat.add_le_add_right
  refine Nat.add_le_add (Nat.add_le_add (Nat.add_le_add ?_ ?_) ?_) ?_
  · exact signal_le 2 fun hsignal => ⟨hsignal.1, hsignal.2.1, by omega⟩
  · refine signal_le 2 fun hsignal => ⟨?_, hsignal.2⟩
    obtain ⟨n, hn, hadmin⟩ := List.any_eq_true.mp hsignal.1
    exact List.any_eq_true.mpr ⟨n, h.uniqueDstPorts hn, hadmin⟩
  · exact signal_le 1 fun hsignal => by omega
  · exact signal_le 2 fun hsignal => by omega

theorem severityOf_anti {score score' : ℕ} (h : score ≤ score') (label : PyStr) :
    severityOf score' label ≤ severityOf score label := by
  unfold severityOf
  grind

theorem Gains.dispatchScore_le {p q : AggregatedIPPair} (h : Gains p q)
    (D : FlowBatchDispatcher) : dispatchScore B D p ≤ dispatchScore B D q := by
  have hscore := h.suspectScore_le (B := B)
  unfold dispatchScore
  by_cases hp : IsHeuristic B D p
  · have hq : IsHeuristic B D q := by
      show D.suspectThreshold ≤ (suspectScore B q : ℤ)
      have hthreshold : D.suspectThreshold ≤ (suspectScore B p : ℤ) := hp
      omega
    rw [if_pos hp, if_pos hq]
    exact hscore
  · rw [if_neg hp]
    exact Nat.zero_le _

/-- A higher score for the same label is at least as severe. -/
theorem atLeastAsSevere_of_le {p q : AggregatedIPPair} {score score' : ℕ}
    {cls cls' : Option Classification} {a b : SuricataAlert Obj} (h : score ≤ score')
    (hlabel : labelOf cls = labelOf cls') (ha : buildSyntheticAlert B p score cls = some a)
    (hb : buildSyntheticAlert B q score' cls' = some b) : AtLeastAsSevere b a := by
  obtain ⟨-, -, hseverity⟩ := of_buildSyntheticAlert ha
  obtain ⟨-, -, hseverity'⟩ := of_buildSyntheticAlert hb
  refine ⟨_, _, hseverity', hseverity, ?_⟩
  rw [← hlabel]
  exact severityOf_anti h _

theorem Gains.moreSuspicious {p q : AggregatedIPPair} (h : Gains p q) : MoreSuspicious B p q := by
  refine ⟨h.suspectScore_le, fun cls cls' hlabel => ⟨fun a b => ?_, fun D a b => ?_⟩⟩
  · exact atLeastAsSevere_of_le h.suspectScore_le hlabel
  · exact atLeastAsSevere_of_le (h.dispatchScore_le D) hlabel

/-- A window that is aggregated with more flows is aggregated without them, and each record is more
suspicious with them. -/
theorem moreSuspicious_of_aggregateFlows {flows extra longer : List (SuricataFlowEvent Obj)}
    {windowStart windowEnd : PyStr} {ipToZone : Option (PyStr → Option PyStr)}
    {pairs' : List AggregatedIPPair} (hlonger : longer.Perm (flows ++ extra))
    (hpairs' : aggregateFlows B longer windowStart windowEnd ipToZone = some pairs') :
    ∃ pairs, aggregateFlows B flows windowStart windowEnd ipToZone = some pairs ∧
      ∀ p ∈ pairs, ∃ q ∈ pairs', q.addresses = p.addresses ∧ MoreSuspicious B p q := by
  have hread : ∀ f ∈ addressed longer, Readable B f :=
    aggregateFlows_isSome_iff.mp (Option.isSome_iff_exists.mpr ⟨pairs', hpairs'⟩)
  have hsome : (aggregateFlows B flows windowStart windowEnd ipToZone).isSome = true := by
    refine aggregateFlows_isSome_iff.mpr fun f hf => hread f ?_
    obtain ⟨hmem, haddressed⟩ := List.mem_filter.mp hf
    exact List.mem_filter.mpr
      ⟨hlonger.mem_iff.mpr (List.mem_append_left _ hmem), haddressed⟩
  obtain ⟨pairs, hpairs⟩ := Option.isSome_iff_exists.mp hsome
  refine ⟨pairs, hpairs, fun p hp => ?_⟩
  obtain ⟨q, hq, haddresses, hgains⟩ := gains_of_perm hlonger hpairs hpairs' hp
  exact ⟨q, hq, haddresses, hgains.moreSuspicious⟩

end

/-! ## Windows with more flows -/

/-- The second connection of a host to an SSH server. -/
theorem moreSuspicious_sshWindow :
    ∃ pairs, aggregateFlows plainBatch sshWindow (u "12:00") (u "12:02") none = some pairs ∧
      ∀ p ∈ pairs, ∃ q ∈ ((aggregateFlows plainBatch
          (sshWindow ++ [plainFlow "10.1.100.5" "10.2.100.10" 80]) (u "12:00") (u "12:02")
          none).getD []),
        q.addresses = p.addresses ∧ MoreSuspicious plainBatch p q := by
  have hsome : (aggregateFlows plainBatch
      (sshWindow ++ [plainFlow "10.1.100.5" "10.2.100.10" 80]) (u "12:00") (u "12:02")
      none).isSome = true := by
    decide +kernel
  obtain ⟨pairs', hpairs'⟩ := Option.isSome_iff_exists.mp hsome
  rw [hpairs']
  exact moreSuspicious_of_aggregateFlows (.refl _) hpairs'

/-- A flow with a counter that is no number. -/
def unreadableFlow : SuricataFlowEvent PyStr :=
  { plainFlow "10.1.100.5" "10.2.100.10" 22 with
    flow := [item "pkts_toserver" (.str (u "many"))] }

/-- One more flow that cannot be read takes the record of its addresses away. -/
theorem exists_evidence_lost :
    ∃ (flows extra : List (SuricataFlowEvent PyStr)) (pairs : List AggregatedIPPair),
      aggregateFlows plainBatch flows (u "12:00") (u "12:02") none = some pairs ∧
      ∃ p ∈ pairs, (∀ f ∈ extra, (f.srcIp, f.destIp) = p.addresses) ∧
        ¬ ∃ pairs', aggregateFlows plainBatch (flows ++ extra) (u "12:00") (u "12:02") none =
            some pairs' ∧
          ∃ q ∈ pairs', q.addresses = p.addresses ∧ MoreSuspicious plainBatch p q := by
  have hsome :
      (aggregateFlows plainBatch sshWindow (u "12:00") (u "12:02") none).isSome = true := by
    decide +kernel
  have hnone : (aggregateFlows plainBatch (sshWindow ++ [unreadableFlow]) (u "12:00") (u "12:02")
      none).isNone = true := by
    decide +kernel
  obtain ⟨pairs, hpairs⟩ := Option.isSome_iff_exists.mp hsome
  have hkey : (u "10.1.100.5", u "10.2.100.10") ∈ keysOf sshWindow := by decide +kernel
  obtain ⟨i, hi, hikey⟩ := List.mem_map.mp hkey
  obtain ⟨p, hp, hbucket⟩ := exists_mem_of_mapM hpairs hi
  have haddresses : p.addresses = i.1 := addresses_of_aggregateBucket hbucket
  refine ⟨sshWindow, [unreadableFlow], pairs, hpairs, p, hp, fun f hf => ?_, ?_⟩
  · obtain rfl := List.mem_singleton.mp hf
    rw [haddresses, hikey]
    rfl
  · rintro ⟨pairs', hpairs', -⟩
    rw [hpairs'] at hnone
    exact absurd hnone (by simp)

end ControlPlane.Stream
