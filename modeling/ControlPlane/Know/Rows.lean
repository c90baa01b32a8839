import ControlPlane.Know.Loaded

/-!
# The nodes that are read

What the reader makes of the nodes that a reload leaves, kind by kind, and when it is what was
written. Zones, leafs and signatures come back in any case, and the assets but for the texts of
their services; of the other kinds each gives its part of `Recoverable`.
-/

namespace ControlPlane.Know

open JsonText PropertyGraph

variable {Obj : Type}

/-! ## Lists of rows -/

/-- A list that is the image of another one in some order is the image of it in this order. -/
theorem exists_of_perm_map {A B : Type} {f : A → B} {l : List B} {xs : List A}
    (h : l.Perm (xs.map f)) : ∃ ys : List A, ys.Perm xs ∧ l = ys.map f := by
  have hcomp : Relation.Comp (fun l ys => l = ys.map f) List.Perm l xs := by
    rw [List.eq_map_comp_perm]
    exact h
  obtain ⟨ys, hl, hys⟩ := hcomp
  exact ⟨ys, hys, hl⟩

theorem ok_bind {A B E : Type} (a : A) (f : A → Except E B) : (Except.ok a >>= f) = f a := rfl

theorem orRaise_eq_ok {A : Type} {x : Option A} {a : A} : orRaise x = .ok a ↔ x = some a := by
  cases x with
  | none => simp [orRaise]
  | some b => simp [orRaise]

namespace Python

variable {P : Python Obj}

/-- What a dict of models is read as. -/
theorem readDict_eq_ok {A : Type} {key : String} {make : Args Obj → Except Failure A}
    {rows : List (Args Obj)} {out : List (PyVal Obj × A)} :
    P.readDict key make rows = .ok out ↔ ∃ items, List.Forall₂ (fun row i =>
      make row = .ok i.2 ∧ row key = some i.1 ∧ P.hashable i.1 = true) rows items ∧
        out = Dict.ofList P.same items := by
  have hstep (d : List (PyVal Obj × A)) (row : Args Obj) (d' : List (PyVal Obj × A)) :
      (do let a ← make row; P.setKey (← row.need key) a d) = Except.ok d' ↔
        ∃ i : PyVal Obj × A, (make row = .ok i.2 ∧ row key = some i.1 ∧
          P.hashable i.1 = true) ∧ d' = Dict.set P.same i.1 i.2 d := by
    constructor
    · intro h
      obtain ⟨a, ha, h⟩ := except_bind_eq_ok h
      obtain ⟨k, hk, h⟩ := except_bind_eq_ok h
      unfold setKey at h
      split_ifs at h with hhash
      exact ⟨(k, a), ⟨ha, orRaise_eq_ok.mp hk, hhash⟩, (Except.ok.inj h).symm⟩
    · rintro ⟨⟨k, a⟩, ⟨ha, hk, hhash⟩, rfl⟩
      have hneed : row.need key = .ok k := orRaise_eq_ok.mpr hk
      rw [ha, hneed]
      exact if_pos hhash
  unfold readDict Dict.ofList
  generalize ([] : List (PyVal Obj × A)) = d
  induction rows generalizing d with
  | nil =>
    rw [List.foldlM_nil]
    constructor
    · intro h
      exact ⟨[], .nil, (Except.ok.inj h).symm⟩
    · rintro ⟨items, hitems, rfl⟩
      rw [List.forall₂_nil_left_iff.mp hitems]
      rfl
  | cons row rest ih =>
    rw [List.foldlM_cons]
    constructor
    · intro h
      obtain ⟨d', hd', h⟩ := except_bind_eq_ok h
      obtain ⟨i, hi, rfl⟩ := (hstep d row d').mp hd'
      obtain ⟨items, hitems, rfl⟩ := (ih _).mp h
      exact ⟨i :: items, .cons hi hitems, rfl⟩
    · rintro ⟨items, hitems, rfl⟩
      obtain ⟨i, more, hi, hmore, rfl⟩ := List.forall₂_cons_left_iff.mp hitems
      rw [(hstep d row _).mpr ⟨i, hi, rfl⟩]
      exact (ih _).mpr ⟨more, hmore, rfl⟩

/-- A dict of models that are read one by one, in any order. -/
theorem exists_readDict {A B : Type} {key : String} {make : Args Obj → Except Failure A}
    {rows : List (Args Obj)} {xs : List B} {row : B → Args Obj} {item : B → PyVal Obj × A}
    (hperm : rows.Perm (xs.map row))
    (hread : ∀ x ∈ xs, make (row x) = .ok (item x).2 ∧ row x key = some (item x).1 ∧
      P.hashable (item x).1 = true)
    (hdistinct : Dict.Distinct P.same (xs.map item)) :
    ∃ out, P.readDict key make rows = .ok out ∧ SameDict P.same (xs.map item) out := by
  obtain ⟨ys, hys, rfl⟩ := exists_of_perm_map hperm
  have hitems : List.Forall₂ (fun row i => make row = .ok i.2 ∧ row key = some i.1 ∧
      P.hashable i.1 = true) (ys.map row) (ys.map item) := by
    rw [List.forall₂_map_left_iff, List.forall₂_map_right_iff, List.forall₂_same]
    exact fun y hy => hread y (hys.mem_iff.mp hy)
  refine ⟨_, readDict_eq_ok.mpr ⟨_, hitems, rfl⟩, fun k => ?_⟩
  have hmap : (xs.map item).Perm (ys.map item) := (hys.map item).symm
  rw [Dict.lookup_ofList_of_distinct P.same_equiv (hdistinct.perm P.same_equiv hmap),
    Dict.lookup_perm P.same_equiv hdistinct hmap]

/-- Other models under the same keys are the same dict only when they are the same models. -/
theorem sameDict_map_iff {A : Type} {items : List (PyVal Obj × A)} {f : PyVal Obj × A → A}
    (hdistinct : Dict.Distinct P.same items) :
    SameDict P.same items (items.map fun i => (i.1, f i)) ↔ ∀ i ∈ items, f i = i.2 := by
  have hmapped : Dict.Distinct P.same (items.map fun i => (i.1, f i)) :=
    List.pairwise_map.mpr hdistinct
  constructor
  · intro hsame i hi
    have hfound := hsame i.1
    rw [Dict.lookup_of_mem P.same_equiv hdistinct hi,
      Dict.lookup_of_mem P.same_equiv hmapped (List.mem_map_of_mem hi)] at hfound
    exact (Option.some.inj hfound).symm
  · intro hall k
    have hmap : (items.map fun i => (i.1, f i)) = items := by
      conv_rhs => rw [← List.map_id items]
      exact List.map_congr_left fun i hi => by rw [hall i hi]; rfl
    rw [hmap]

end Python

namespace Neo4j

variable {N : Neo4j Obj} {kb : Knowledge Obj} {gotchas mappings failures actions : List (PyVal Obj)}
  {g : Graph (PyVal Obj)} {q : Answers Obj}

/-- All nodes of a label are marked. -/
theorem Loaded.managedRows_eq (h : Loaded N kb gotchas mappings failures actions g) {l : String}
    (hl : l ∈ LABELS) :
    managedRows g l = built N.equal (N.itemsOf kb gotchas mappings failures actions l) := by
  unfold managedRows
  rw [h.rows l hl]
  exact List.filter_eq_self.mpr fun p hp => managed_of_mem_built hp

/-! ## Values of rows -/

theorem listed_of_texts {row : Args Obj} {name : String} {ss : List PyStr}
    (h : row name = some (texts ss)) : N.listed row name = .ok row := by
  have hxs : N.toList (row.getD name (.seq false [])) = some (ss.map .str) := by
    rw [Args.getD, h]
    exact N.toList_seq false _
  have hset : row.set name (texts ss) = row := by
    funext n
    unfold Args.set
    split_ifs with hn
    · rw [hn, h]
    · rfl
  unfold Python.listed
  rw [orRaise_eq_ok.mpr hxs]
  exact congrArg Except.ok hset

theorem strsArg_of_texts {row : Args Obj} {name : String} {ss : List PyStr}
    (h : row name = some (texts ss)) : N.strsArg row name = some ss := by
  have hlist : N.asList (texts ss) = some (ss.map .str) := N.asList_seq false _
  have hall : (ss.map .str).mapM N.asStr = some ss := by
    rw [List.mapM_map]
    have hone : ∀ s ∈ ss, (N.asStr ∘ PyVal.str) s = some (id s) := fun s _ => N.asStr_str s
    rw [mapM_of_forall hone, List.map_id]
  unfold Python.strsArg Python.asStrs
  rw [h]
  show (N.asList (texts ss)).bind (fun xs => xs.mapM N.asStr) = some ss
  rw [hlist]
  exact hall

/-! ## Zones, leafs and signatures -/

theorem zone_rowOf {key : PyVal Obj} {z : Zone} (hs : N.Sent key (zoneParams z))
    (hkey : N.asStr key = some z.name) (hstored : N.stored key = key) :
    N.zone (N.rowOf "name" key (zoneParams z)) = some z := by
  have hc : CleanNames "name" (zoneParams z : Params Obj) := cleanNames_zone z
  have hname : N.strArg (N.rowOf "name" key (zoneParams z)) "name" = some z.name := by
    rw [Python.strArg, rowOf_key hc, hstored]
    exact hkey
  have hcidr : N.strArg (N.rowOf "name" key (zoneParams z)) "cidr" = some z.cidr :=
    strArg_rowOf hc hs (by simp [zoneParams])
  have hleaf : N.strArg (N.rowOf "name" key (zoneParams z)) "leaf" = some z.leaf :=
    strArg_rowOf hc hs (by simp [zoneParams])
  have hvlan : N.intArg (N.rowOf "name" key (zoneParams z)) "vlan" = some z.vlan :=
    intArg_rowOf hc hs (by simp [zoneParams])
  have hsvi : N.strArg (N.rowOf "name" key (zoneParams z)) "svi_gateway" = some z.sviGateway :=
    strArg_rowOf hc hs (by simp [zoneParams])
  have hpurpose : N.strArg (N.rowOf "name" key (zoneParams z)) "purpose" = some z.purpose :=
    strArg_rowOf hc hs (by simp [zoneParams])
  have htrust : N.rowOf "name" key (zoneParams z) "trust_level" = some (.str z.trustLevel.value) :=
    rowOf_str hc hs (by simp [zoneParams])
  have hcrit : N.rowOf "name" key (zoneParams z) "criticality" = some (.str z.criticality.value) :=
    rowOf_str hc hs (by simp [zoneParams])
  simp only [Python.zone, hname, hcidr, hleaf, hvlan, hsvi, hpurpose, htrust, hcrit,
    Option.bind_eq_bind, Option.bind_some, memberOf_trustLevel, memberOf_criticality]
  rfl

theorem leaf_rowOf {key : PyVal Obj} {l : Leaf} (hs : N.Sent key (leafParams l))
    (hkey : N.asStr key = some l.name) (hstored : N.stored key = key) :
    (do orRaise (N.leaf (← N.listed (N.rowOf "name" key (leafParams l)) "zones"))) = .ok l := by
  have hc : CleanNames "name" (leafParams l : Params Obj) := cleanNames_leaf l
  have hname : N.strArg (N.rowOf "name" key (leafParams l)) "name" = some l.name := by
    rw [Python.strArg, rowOf_key hc, hstored]
    exact hkey
  have hmgmt : N.strArg (N.rowOf "name" key (leafParams l)) "mgmt_ip" = some l.mgmtIp :=
    strArg_rowOf hc hs (by simp [leafParams])
  have hrole : N.strArg (N.rowOf "name" key (leafParams l)) "role" = some l.role :=
    strArg_rowOf hc hs (by simp [leafParams])
  have hzones : N.rowOf "name" key (leafParams l) "zones" = some (texts l.zones) :=
    rowOf_texts hc hs (by simp [leafParams])
  rw [listed_of_texts hzones]
  refine orRaise_eq_ok.mpr ?_
  simp only [Python.leaf, hname, hmgmt, hrole, strsArg_of_texts hzones, Option.bind_eq_bind,
    Option.bind_some]
  rfl

theorem sidDetection_rowOf {key : PyVal Obj} {d : SidDetection} (hs : N.Sent key (sidParams d))
    (hkey : N.asInt key = some d.sid) (hstored : N.stored key = key) :
    (do orRaise (N.sidDetection
      (← N.listed (N.rowOf "sid" key (sidParams d)) "false_positive_scenarios"))) = .ok d := by
  have hc : CleanNames "sid" (sidParams d : Params Obj) := cleanNames_sid d
  generalize hrow : N.rowOf "sid" key (sidParams d) = row
  have hsid : N.intArg row "sid" = some d.sid := by
    rw [← hrow, Python.intArg, rowOf_key hc, hstored]
    exact hkey
  have hseverity : N.intArg row "severity_p_level" = some d.severityPLevel :=
    hrow ▸ intArg_rowOf hc hs (by simp [sidParams])
  have hmsg : N.strArg row "signature_msg" = some d.signatureMsg :=
    hrow ▸ strArg_rowOf hc hs (by simp [sidParams])
  have hdescription : N.strArg row "production_description" = some d.productionDescription :=
    hrow ▸ strArg_rowOf hc hs (by simp [sidParams])
  have htactic : N.strArg row "mitre_tactic" = some d.mitreTactic :=
    hrow ▸ strArg_rowOf hc hs (by simp [sidParams])
  have htechnique : N.strArg row "mitre_technique" = some d.mitreTechnique :=
    hrow ▸ strArg_rowOf hc hs (by simp [sidParams])
  have hlogic : N.strArg row "detection_logic" = some d.detectionLogic :=
    hrow ▸ strArg_rowOf hc hs (by simp [sidParams])
  have hresponse : N.strArg row "recommended_response" = some d.recommendedResponse :=
    hrow ▸ strArg_rowOf hc hs (by simp [sidParams])
  have httl : N.intArg row "default_ttl_seconds" = some d.defaultTtlSeconds :=
    hrow ▸ intArg_rowOf hc hs (by simp [sidParams])
  have hlikelihood : N.strArg row "false_positive_likelihood" = some d.falsePositiveLikelihood :=
    hrow ▸ strArg_rowOf hc hs (by simp [sidParams])
  have hflags : row "uses_flags_s_workaround" = some (.bool d.usesFlagsSWorkaround) := by
    rw [← hrow, rowOf_param hc (p := ("uses_flags_s_workaround", .bool d.usesFlagsSWorkaround))
      (by simp [sidParams])]
    exact given_bool (hs.params_stored ("uses_flags_s_workaround", _) (by simp [sidParams]))
  have hscenarios : row "false_positive_scenarios" = some (texts d.falsePositiveScenarios) :=
    hrow ▸ rowOf_texts hc hs (by simp [sidParams])
  rw [listed_of_texts hscenarios]
  refine orRaise_eq_ok.mpr ?_
  simp only [Python.sidDetection, hsid, hseverity, hmsg, hdescription, htactic, htechnique, hlogic,
    hflags, hresponse, httl, hlikelihood, strsArg_of_texts hscenarios, Option.bind_eq_bind,
    Option.bind_some, N.asBool_bool]
  rfl

/-! ## Assets -/

/-- A service as it is read of the JSON text that is written for it. -/
def joinService (s : Service) : Service where
  port := s.port
  proto := join s.proto
  name := join s.name
  facing := join s.facing
  purpose := join s.purpose

/-- An asset as it is read. -/
def joinAsset (a : Asset) : Asset := { a with services := a.services.map joinService }

theorem join_eq_self_iff {s : PyStr} : join s = s ↔ Joined s :=
  ⟨fun h => h ▸ joined_join s, join_of_joined⟩

theorem joinAsset_eq_self_iff {a : Asset} :
    joinAsset a = a ↔ ∀ s ∈ a.services, joinService s = s := by
  have hmap : a.services.map joinService = a.services ↔ ∀ s ∈ a.services, joinService s = s := by
    conv_lhs => rhs; rw [← List.map_id a.services]
    exact List.map_inj_left
  rw [← hmap]
  constructor
  · intro h
    exact congrArg Asset.services h
  · intro h
    unfold joinAsset
    rw [h]

/-- A service is read back when its texts have no pairs of surrogates. -/
theorem joinService_eq_self_iff {a : Asset} (hw : N.Writable (servicesOf a)) {s : Service}
    (hs : s ∈ a.services) : joinService s = s ↔ N.KeptService s := by
  have hport : (natText s.port.natAbs).length ≤ N.maxDigits := by
    have hdump := N.writable_seq.mp hw _ (List.mem_map_of_mem hs)
    exact (N.writable_dict.mp hdump (item "port" (.int s.port)) List.mem_cons_self).2.here
  constructor
  · intro h
    exact ⟨hport, join_eq_self_iff.mp (congrArg Service.proto h),
      join_eq_self_iff.mp (congrArg Service.name h),
      join_eq_self_iff.mp (congrArg Service.facing h),
      join_eq_self_iff.mp (congrArg Service.purpose h)⟩
  · intro h
    unfold joinService
    rw [join_eq_self_iff.mpr h.proto, join_eq_self_iff.mpr h.name, join_eq_self_iff.mpr h.facing,
      join_eq_self_iff.mpr h.purpose]

theorem readBack_modelDump (s : Service) :
    readBack (s.modelDump : PyVal Obj) = (joinService s).modelDump := by
  have hkey (name : String) : join (u name) = u name := join_of_joined (joined_u name)
  have hnd : ((readBackItems [item "port" (.int s.port), item "proto" (.str s.proto),
      item "name" (.str s.name), item "facing" (.str s.facing),
      item "purpose" (.str s.purpose : PyVal Obj)]).map Prod.fst).Nodup := by
    rw [readBackItems_eq_map]
    simp only [List.map_cons, List.map_nil, item, Interp.keyText, hkey]
    decide
  unfold Service.modelDump
  rw [readBack, asDict_of_nodup hnd, readBackItems_eq_map]
  simp only [List.map_cons, List.map_nil, item, Interp.keyText, hkey, readBack]
  rfl

theorem readBack_servicesOf (a : Asset) :
    readBack (servicesOf a : PyVal Obj) = servicesOf (joinAsset a) := by
  unfold servicesOf joinAsset
  rw [readBack, readBackList_eq_map, List.map_map, List.map_map]
  refine congrArg (PyVal.seq false) (List.map_congr_left fun s _ => ?_)
  exact readBack_modelDump s

/-- A service is made of its own values. -/
theorem service_modelDump (s : Service) : (do N.service (← argsOf s.modelDump)) = some s := by
  obtain ⟨args, hargs, hport, hproto, hname, hfacing, hpurpose⟩ : ∃ args : Args Obj,
      argsOf s.modelDump = some args ∧ args "port" = some (.int s.port) ∧
        args "proto" = some (.str s.proto) ∧ args "name" = some (.str s.name) ∧
          args "facing" = some (.str s.facing) ∧ args "purpose" = some (.str s.purpose) :=
    ⟨_, rfl, rfl, rfl, rfl, rfl, rfl⟩
  rw [hargs]
  show N.service args = some s
  simp only [Python.service, Python.intArg, Python.strArg, hport, hproto, hname, hfacing, hpurpose,
    Option.bind_eq_bind, Option.bind_some, N.asInt_int, N.asStr_str]
  rfl

theorem cleanNames_asset (a : Asset) : CleanNames "ip" (assetRow a : Params Obj) := by
  simp [CleanNames, assetRow, assetParams]

theorem nestedIn_servicesOf (a : Asset) : (servicesOf a : PyVal Obj).NestedIn 2 := by
  refine PyVal.nestedIn_seq.mpr fun w hw => ?_
  obtain ⟨s, -, rfl⟩ := List.mem_map.mp hw
  refine PyVal.nestedIn_dict.mpr fun i hi => ?_
  simp only [List.mem_cons, List.not_mem_nil, or_false, item] at hi
  rcases hi with rfl | rfl | rfl | rfl | rfl
  all_goals exact PyVal.NestedIn.scalar _ _ (fun _ _ h => nomatch h) (fun _ h => nomatch h)

/-- The services of an asset are read as they are joined. -/
theorem services_rowOf {a : Asset} (hw : N.Writable (servicesOf a)) :
    N.loadsOf (.str (Interp.print (servicesOf a : PyVal Obj))) = some (servicesOf (joinAsset a)) ∧
      (do (← N.toList (servicesOf (joinAsset a))).mapM fun s => do N.service (← argsOf s)) =
        some (joinAsset a).services := by
  constructor
  · have hdeep : (servicesOf a : PyVal Obj).NestedIn N.loadsDepth :=
      (nestedIn_servicesOf a).mono N.loads_deep
    show (N.loads (Interp.print (servicesOf a : PyVal Obj))).toOption = _
    rw [N.loads_print hw hdeep, readBack_servicesOf]
    rfl
  · have hlist : N.toList (servicesOf (joinAsset a)) =
        some ((joinAsset a).services.map Service.modelDump) := N.toList_seq false _
    rw [hlist]
    show ((joinAsset a).services.map Service.modelDump).mapM
      (fun s => do N.service (← argsOf s)) = some (joinAsset a).services
    rw [List.mapM_map]
    have hone : ∀ s ∈ (joinAsset a).services, ((fun s => do N.service (← argsOf s)) ∘
        Service.modelDump) s = some (id s) := fun s _ => service_modelDump s
    rw [mapM_of_forall hone, List.map_id]

/-- The row of an asset is read as the asset with its services joined. -/
theorem asset_rowOf {key : PyVal Obj} {a : Asset} (hw : N.Writable (servicesOf a))
    (hs : N.Sent key (assetRow a)) (hkey : N.asStr key = some a.ip) (hstored : N.stored key = key) :
    N.assetOfRow (N.rowOf "ip" key (assetRow a)) = .ok (joinAsset a) := by
  have hc : CleanNames "ip" (assetRow a : Params Obj) := cleanNames_asset a
  generalize hrow : N.rowOf "ip" key (assetRow a) = row
  have hip : N.strArg row "ip" = some a.ip := by
    rw [← hrow, Python.strArg, rowOf_key hc, hstored]
    exact hkey
  have hhostname : N.strArg row "hostname" = some a.hostname :=
    hrow ▸ strArg_rowOf hc hs (by simp [assetRow, assetParams])
  have hzone : N.strArg row "zone" = some a.zone :=
    hrow ▸ strArg_rowOf hc hs (by simp [assetRow, assetParams])
  have htier : N.strArg row "tier" = some a.tier :=
    hrow ▸ strArg_rowOf hc hs (by simp [assetRow, assetParams])
  have hrole : N.strArg row "role" = some a.role :=
    hrow ▸ strArg_rowOf hc hs (by simp [assetRow, assetParams])
  have hcompromised : N.strArg row "if_compromised_impact" = some a.ifCompromisedImpact :=
    hrow ▸ strArg_rowOf hc hs (by simp [assetRow, assetParams])
  have hblocked : N.strArg row "if_blocked_impact" = some a.ifBlockedImpact :=
    hrow ▸ strArg_rowOf hc hs (by simp [assetRow, assetParams])
  have howner : N.strArg row "owner_team" = some a.ownerTeam :=
    hrow ▸ strArg_rowOf hc hs (by simp [assetRow, assetParams])
  have hcrit : row "criticality" = some (.str a.criticality.value) :=
    hrow ▸ rowOf_str hc hs (by simp [assetRow, assetParams])
  have hclass : row "data_classification" = some (.str a.dataClassification.value) :=
    hrow ▸ rowOf_str hc hs (by simp [assetRow, assetParams])
  have hservices : row "services_json" = some (.str (Interp.print (servicesOf a : PyVal Obj))) :=
    hrow ▸ rowOf_str hc hs (by simp [assetRow, assetParams])
  have hinbound : row "expected_inbound_sources" = some (texts a.expectedInboundSources) :=
    hrow ▸ rowOf_texts hc hs (by simp [assetRow, assetParams])
  have houtbound :
      row "expected_outbound_destinations" = some (texts a.expectedOutboundDestinations) :=
    hrow ▸ rowOf_texts hc hs (by simp [assetRow, assetParams])
  obtain ⟨hloads, hmodels⟩ := services_rowOf hw
  have hloaded : orRaise (N.loadsOf (row.getD "services_json" (.str (u "[]")))) =
      .ok (servicesOf (joinAsset a)) := by
    rw [Args.getD, hservices]
    exact orRaise_eq_ok.mpr hloads
  have hasset : N.asset row (joinAsset a).services = some (joinAsset a) := by
    simp only [Python.asset, hip, hhostname, hzone, htier, hrole, hcrit, hclass,
      strsArg_of_texts hinbound, strsArg_of_texts houtbound, hcompromised, hblocked, howner,
      Option.bind_eq_bind, Option.bind_some, memberOf_criticality, memberOf_dataClassification]
    rfl
  unfold Python.assetOfRow
  rw [hloaded, ok_bind, orRaise_eq_ok.mpr hmodels, ok_bind, listed_of_texts hinbound, ok_bind,
    listed_of_texts houtbound, ok_bind]
  exact orRaise_eq_ok.mpr hasset

/-! ## Baselines -/

theorem pattern_rowOf {b : TrafficPattern} (hs : N.Sent (.str b.name) (patternParams b)) :
    N.trafficPattern (N.rowOf "name" (.str b.name) (patternParams b)) = some b := by
  have hc : CleanNames "name" (patternParams b : Params Obj) := cleanNames_pattern b
  generalize hrow : N.rowOf "name" (.str b.name) (patternParams b) = row
  have hname : N.strArg row "name" = some b.name := by
    rw [← hrow, Python.strArg, rowOf_key hc, stored_of_scalar (by simp)]
    exact N.asStr_str b.name
  have hsrcZone : N.strArg row "src_zone" = some b.srcZone :=
    hrow ▸ strArg_rowOf hc hs (by simp [patternParams])
  have hsrcIp : N.strArg row "src_ip" = some b.srcIp :=
    hrow ▸ strArg_rowOf hc hs (by simp [patternParams])
  have hdstZone : N.strArg row "dst_zone" = some b.dstZone :=
    hrow ▸ strArg_rowOf hc hs (by simp [patternParams])
  have hdstIp : N.strArg row "dst_ip" = some b.dstIp :=
    hrow ▸ strArg_rowOf hc hs (by simp [patternParams])
  have hport : N.intArg row "dst_port" = some b.dstPort :=
    hrow ▸ intArg_rowOf hc hs (by simp [patternParams])
  have hproto : N.strArg row "proto" = some b.proto :=
    hrow ▸ strArg_rowOf hc hs (by simp [patternParams])
  have hcadence : N.strArg row "cadence" = some b.cadence :=
    hrow ▸ strArg_rowOf hc hs (by simp [patternParams])
  have hvolume : N.intArg row "expected_volume_per_hour" = some b.expectedVolumePerHour :=
    hrow ▸ intArg_rowOf hc hs (by simp [patternParams])
  have hburst : N.strArg row "burst_anomaly_threshold" = some b.burstAnomalyThreshold :=
    hrow ▸ strArg_rowOf hc hs (by simp [patternParams])
  have hdescription : N.strArg row "production_description" = some b.productionDescription :=
    hrow ▸ strArg_rowOf hc hs (by simp [patternParams])
  have hdisrupted : N.strArg row "if_disrupted" = some b.ifDisrupted :=
    hrow ▸ strArg_rowOf hc hs (by simp [patternParams])
  have hcrit : row "criticality_to_business" = some (.str b.criticalityToBusiness.value) :=
    hrow ▸ rowOf_str hc hs (by simp [patternParams])
  simp only [Python.trafficPattern, hname, hsrcZone, hsrcIp, hdstZone, hdstIp, hport, hproto,
    hcadence, hvolume, hburst, hdescription, hdisrupted, hcrit, Option.bind_eq_bind,
    Option.bind_some, memberOf_criticality]
  rfl

theorem cleanNames_constants (b : Baselines Obj) : CleanNames "key" (constantsParams b) := by
  simp [CleanNames, constantsParams]

theorem cleanNames_rbac (v : PyVal Obj) : CleanNames "key" [("text", v)] := by
  simp [CleanNames]

theorem cleanNames_invariants (inv : Invariants Obj) (actions : List (PyVal Obj)) :
    CleanNames "key" (invariantParams inv actions) := by
  simp [CleanNames, invariantParams]

/-- A node that is there once is read by its key. -/
theorem Loaded.metaRows_eq (h : Loaded N kb gotchas mappings failures actions g) (key : String) :
    N.metaRows g key = ((metaNodes kb actions).filter fun m => decide (u m.1 = u key)).map
      fun m => N.rowOf "key" (.str (u m.1)) m.2 := by
  have hclean : ∀ m ∈ metaNodes kb actions, CleanNames "key" m.2 := by
    intro m hm
    simp only [metaNodes, List.mem_cons, List.not_mem_nil, or_false] at hm
    rcases hm with rfl | rfl | rfl
    · exact cleanNames_constants _
    · exact cleanNames_rbac _
    · exact cleanNames_invariants _ _
  have hkey : ByKey "key" (N.itemsOf kb gotchas mappings failures actions "KnowledgeMeta") := by
    rw [itemsOf_meta]
    intro x hx
    obtain ⟨m, hm, rfl⟩ := List.mem_map.mp hx
    refine ⟨rfl, ?_⟩
    show "key" ∉ (N.setsOf m.2).map Prod.fst
    rw [names_setsOf]
    exact (List.nodup_cons.mp (hclean m hm)).1
  have hdiff : Different N.equal
      (N.itemsOf kb gotchas mappings failures actions "KnowledgeMeta") := by
    rw [itemsOf_meta]
    have hnames : ((metaNodes kb actions).map fun m => u m.1).Nodup := by
      simp only [metaNodes, List.map_cons, List.map_nil]
      decide
    refine List.pairwise_map.mpr ((List.pairwise_map.mp hnames).imp fun {m m'} hne => ?_)
    show N.equal (N.stored (.str (u m.1))) (N.stored (.str (u m'.1))) = false
    rw [stored_of_scalar (by simp), stored_of_scalar (by simp), ← Bool.not_eq_true, N.equal_str]
    exact hne
  unfold metaRows
  rw [h.rows "KnowledgeMeta" (by decide), built_of_different hkey hdiff, itemsOf_meta,
    List.map_map, List.filter_map]
  refine congrArg (List.map _) (List.filter_congr fun m hm => ?_)
  have hvalue : N.rowOf "key" (.str (u m.1)) m.2 "key" = some (.str (u m.1)) := by
    rw [rowOf_key (hclean m hm), stored_of_scalar (by simp)]
  show Props.has N.equal (N.rowOf "key" (.str (u m.1)) m.2) "key" (.str (u key)) = _
  rw [Props.has, hvalue, Option.any_some, Bool.eq_iff_iff, N.equal_str, decide_eq_true_eq]

theorem perm_partition (patterns : List TrafficPattern) :
    ((patterns.filter fun p => p.srcZone ≠ u "MGT") ++
      patterns.filter fun p => p.srcZone = u "MGT").Perm patterns := by
  have hsplit := List.filter_append_perm (fun p : TrafficPattern => p.srcZone ≠ u "MGT") patterns
  simpa using hsplit

/-- As many nodes as names make the names different ones. -/
theorem nodup_of_length {A : Type} {l key : String} {name : A → PyStr} {params : A → Params Obj}
    {xs : List A} (hclean : ∀ x, CleanNames key (params x))
    (hlength : (built N.equal (xs.map fun x => N.itemOf l key (.str (name x)) (params x))).length =
      xs.length) : (xs.map name).Nodup := by
  have hdiff := (length_built_iff (byKey_items hclean xs)).mp
    (hlength.trans (List.length_map _).symm)
  refine List.pairwise_map.mpr ((List.pairwise_map.mp hdiff).imp fun {x y} hxy => ?_)
  intro heq
  have hequal : N.equal (N.stored (.str (name x))) (N.stored (.str (name y))) = true := by
    rw [stored_of_scalar (by simp), stored_of_scalar (by simp), N.equal_str]
    exact heq
  have hunequal : N.equal (N.stored (.str (name x))) (N.stored (.str (name y))) = false := hxy
  rw [hequal] at hunequal
  exact Bool.noConfusion hunequal

/-- The nodes of a dict are read as a dict with the same keys. -/
theorem Loaded.exists_readDict (h : Loaded N kb gotchas mappings failures actions g)
    {A B : Type} {l key : String} {params : A → Params Obj} {items : List (PyVal Obj × A)}
    (make : Args Obj → Except Failure B) (read : A → B) (hl : l ∈ LABELS)
    (hclean : ∀ a, CleanNames key (params a))
    (hitems : N.itemsOf kb gotchas mappings failures actions l =
      items.map fun i => N.itemOf l key i.1 (params i.2))
    (hstored : ∀ i ∈ items, N.stored i.1 = i.1) (hhash : ∀ i ∈ items, N.hashable i.1 = true)
    (hdistinct : Dict.Distinct N.same items)
    (hmake : ∀ i ∈ items, make (N.rowOf key i.1 (params i.2)) = .ok (read i.2))
    {answer : Answer (Args Obj)} (hgives : Gives answer (managedRows g l)) :
    ∃ rows, answer = .ok rows ∧ ∃ out, N.readDict key make rows = .ok out ∧
      SameDict N.same (items.map fun i => (i.1, read i.2)) out := by
  obtain ⟨rows, rfl, hperm⟩ := hgives
  have hrows : built N.equal (items.map fun i => N.itemOf l key i.1 (params i.2)) =
      items.map fun i => N.rowOf key i.1 (params i.2) :=
    built_of_distinct (fun i => hclean i.2) hstored hdistinct
  rw [h.managedRows_eq hl, hitems, hrows] at hperm
  have hread : ∀ i ∈ items, make (N.rowOf key i.1 (params i.2)) = .ok (read i.2) ∧
      N.rowOf key i.1 (params i.2) key = some i.1 ∧ N.hashable i.1 = true := by
    intro i hi
    refine ⟨hmake i hi, ?_, hhash i hi⟩
    rw [rowOf_key (hclean i.2), hstored i hi]
  have hkeys : Dict.Distinct N.same (items.map fun i => (i.1, read i.2)) :=
    List.pairwise_map.mpr hdistinct
  exact ⟨rows, rfl, Python.exists_readDict hperm hread hkeys⟩

/-- What the queries for the nodes that are there once answer. -/
theorem Loaded.meta_answers (h : Loaded N kb gotchas mappings failures actions g)
    (hq : N.AnswersOf g q) :
    q.baselineConstants = .ok [N.rowOf "key" (.str (u "baseline_constants"))
        (constantsParams kb.baselines)] ∧
      q.rbacContract = .ok [N.rowOf "key" (.str (u "rbac_contract"))
        [("text", kb.enforcementPlane.rbacContract)]] ∧
      q.agentInvariants = .ok [N.rowOf "key" (.str (u "agent_invariants"))
        (invariantParams kb.invariants actions)] := by
  have hone {answer : Answer (Args Obj)} {key : String} {params : Params Obj}
      (hgives : Gives answer (N.metaRows g key))
      (hnode : ((metaNodes kb actions).filter fun m => decide (u m.1 = u key)) =
        [(key, params)]) : answer = .ok [N.rowOf "key" (.str (u key)) params] := by
    obtain ⟨l, rfl, hperm⟩ := hgives
    rw [h.metaRows_eq, hnode, List.map_singleton, List.perm_singleton] at hperm
    rw [hperm]
  refine ⟨hone hq.baselineConstants ?_, hone hq.rbacContract ?_, hone hq.agentInvariants ?_⟩
  all_goals simp [metaNodes, u_injective.eq_iff]

section

variable (h : Loaded N kb gotchas mappings failures actions g) (hkb : Accepted N.toPython kb)
  (hq : N.AnswersOf g q)
include h hkb hq

/-- The zones are read back. -/
theorem Loaded.readZones : ∃ out, N.readZones q = .ok out ∧ SameDict N.same kb.zones out := by
  have hstored : ∀ i ∈ kb.zones, N.stored i.1 = i.1 := fun i hi =>
    hkb.zones.stored_eq N.asStr_seq hi
  obtain ⟨rows, hrows, out, hout, hsame⟩ := h.exists_readDict (fun z => orRaise (N.zone z)) id
    (by decide) cleanNames_zone itemsOf_zone hstored hkb.zones.hashable hkb.zones.distinct
    (fun i hi => orRaise_eq_ok.mpr
      (zone_rowOf (h.sent.zones i hi) (hkb.zones.key i hi) (hstored i hi))) hq.zones
  refine ⟨out, ?_, by simpa using hsame⟩
  rw [Python.readZones, hrows]
  exact hout

/-- The leafs are read back. -/
theorem Loaded.readLeafs : ∃ out, N.readLeafs q = .ok out ∧ SameDict N.same kb.leafs out := by
  have hstored : ∀ i ∈ kb.leafs, N.stored i.1 = i.1 := fun i hi =>
    hkb.leafs.stored_eq N.asStr_seq hi
  obtain ⟨rows, hrows, out, hout, hsame⟩ := h.exists_readDict
    (fun l => do orRaise (N.leaf (← N.listed l "zones"))) id (by decide) cleanNames_leaf
    itemsOf_leaf hstored hkb.leafs.hashable hkb.leafs.distinct
    (fun i hi => leaf_rowOf (h.sent.leafs i hi) (hkb.leafs.key i hi) (hstored i hi)) hq.leafs
  refine ⟨out, ?_, by simpa using hsame⟩
  rw [Python.readLeafs, hrows]
  exact hout

/-- The signatures are read back. -/
theorem Loaded.readSids : ∃ out, N.readSids q = .ok out ∧ SameDict N.same kb.sids out := by
  have hstored : ∀ i ∈ kb.sids, N.stored i.1 = i.1 := fun i hi =>
    hkb.sids.stored_eq N.asInt_seq hi
  obtain ⟨rows, hrows, out, hout, hsame⟩ := h.exists_readDict
    (fun s => do orRaise (N.sidDetection (← N.listed s "false_positive_scenarios"))) id
    (by decide) cleanNames_sid itemsOf_sid hstored hkb.sids.hashable hkb.sids.distinct
    (fun i hi => sidDetection_rowOf (h.sent.sids i hi) (hkb.sids.key i hi) (hstored i hi)) hq.sids
  refine ⟨out, ?_, by simpa using hsame⟩
  rw [Python.readSids, hrows]
  exact hout

/-- The assets are read back when their services are. -/
theorem Loaded.readAssets_iff :
    (∃ out, N.readAssets q = .ok out ∧ SameDict N.same kb.assets out) ↔
      ∀ i ∈ kb.assets, ∀ s ∈ i.2.services, N.KeptService s := by
  have hstored : ∀ i ∈ kb.assets, N.stored i.1 = i.1 := fun i hi =>
    hkb.assets.stored_eq N.asStr_seq hi
  obtain ⟨rows, hrows, out, hout, hsame⟩ := h.exists_readDict N.assetOfRow joinAsset
    (by decide) cleanNames_asset itemsOf_asset hstored hkb.assets.hashable hkb.assets.distinct
    (fun i hi => asset_rowOf (h.sent.assets i hi).1 (h.sent.assets i hi).2 (hkb.assets.key i hi)
      (hstored i hi)) hq.assets
  have hread : N.readAssets q = .ok out := by
    rw [Python.readAssets, hrows]
    exact hout
  have hiff : (∃ out, N.readAssets q = .ok out ∧ SameDict N.same kb.assets out) ↔
      SameDict N.same kb.assets (kb.assets.map fun i => (i.1, joinAsset i.2)) := by
    constructor
    · rintro ⟨out', hout', hsame'⟩ k
      obtain rfl := Except.ok.inj (hread.symm.trans hout')
      rw [hsame' k, hsame k]
    · intro hsame'
      exact ⟨out, hread, fun k => (hsame' k).trans (hsame k)⟩
  rw [hiff, Python.sameDict_map_iff (f := fun i => joinAsset i.2) hkb.assets.distinct]
  refine forall₂_congr fun i hi => ?_
  rw [joinAsset_eq_self_iff]
  refine forall₂_congr fun s hs => ?_
  exact joinService_eq_self_iff (h.sent.assets i hi).1 hs

omit hkb in
/-- The baselines are read back when each has a name of its own and the patterns of anomalies come
back. -/
theorem Loaded.readBaselines_iff :
    (∃ out, N.readBaselines q = .ok out ∧ SameBaselines kb.baselines out) ↔
      (kb.baselines.patterns.map TrafficPattern.name).Nodup ∧
        N.Kept (.seq false kb.baselines.anomalousPatterns) := by
  obtain ⟨rows, hrows, hperm⟩ := hq.baselines
  rw [h.managedRows_eq (by decide), itemsOf_baseline] at hperm
  have hconstants := (h.meta_answers hq).1
  generalize hm : N.rowOf "key" (.str (u "baseline_constants")) (constantsParams kb.baselines) = m
    at hconstants
  have hc := cleanNames_constants kb.baselines
  obtain ⟨ys, -, hys⟩ := exists_given_seq (h.sent.constants.params_stored
    ("anomalous_patterns", .seq false kb.baselines.anomalousPatterns) (by simp [constantsParams]))
  have hanomalous : m "anomalous_patterns" = some (.seq false ys) := by
    rw [← hm, rowOf_param hc
      (p := ("anomalous_patterns", .seq false kb.baselines.anomalousPatterns))
      (by simp [constantsParams])]
    exact hys
  have hsteady : m "steady_state_flows_per_minute" =
      some (.int kb.baselines.steadyStateFlowsPerMinute) :=
    hm ▸ rowOf_int hc h.sent.constants (by simp [constantsParams])
  have haudit : m "mgt_audit_alert_rate_per_minute" =
      some (.int kb.baselines.mgtAuditAlertRatePerMinute) :=
    hm ▸ rowOf_int hc h.sent.constants (by simp [constantsParams])
  have hread : N.readBaselines q = (do
      let patterns ← rows.mapM fun b => orRaise (N.trafficPattern b)
      return {
        patterns := (patterns.filter fun p => p.srcZone ≠ u "MGT") ++
          patterns.filter fun p => p.srcZone = u "MGT"
        anomalousPatterns := ys
        steadyStateFlowsPerMinute := kb.baselines.steadyStateFlowsPerMinute
        mgtAuditAlertRatePerMinute := kb.baselines.mgtAuditAlertRatePerMinute }) := by
    unfold Python.readBaselines
    rw [hrows, ok_bind]
    congr 1
    funext patterns
    rw [hconstants, ok_bind]
    simp only [Args.getD, Args.need, hanomalous, hsteady, haudit, Option.getD_some, orRaise,
      N.toList_seq, N.toInt_int, ok_bind]
  have hkept : N.Kept (.seq false kb.baselines.anomalousPatterns) ↔
      kb.baselines.anomalousPatterns = ys := by
    rw [Kept, hys, Option.some.injEq, PyVal.seq.injEq, eq_comm (a := ys)]
    exact and_iff_right rfl
  rw [hread, hkept]
  constructor
  · rintro ⟨out, hout, hsame⟩
    obtain ⟨patterns, hpatterns, hout⟩ := except_bind_eq_ok hout
    obtain rfl := Except.ok.inj hout
    have hlength : (built N.equal (kb.baselines.patterns.map fun b =>
        N.itemOf "Baseline" "name" (.str b.name) (patternParams b))).length =
          kb.baselines.patterns.length := by
      have hmap : rows.length = patterns.length := (mapM_eq_ok.mp hpatterns).length_eq
      have hall : kb.baselines.patterns.length = patterns.length :=
        (hsame.patterns.trans (perm_partition patterns)).length_eq
      have hrows := hperm.length_eq
      omega
    exact ⟨nodup_of_length cleanNames_pattern hlength, hsame.anomalousPatterns⟩
  · rintro ⟨hnd, rfl⟩
    rw [built_of_distinct cleanNames_pattern (fun b _ => stored_of_scalar (by simp))
      (pairwise_texts hnd)] at hperm
    obtain ⟨patterns, hpatterns, rfl⟩ := exists_of_perm_map hperm
    have hmap : (patterns.map fun b => N.rowOf "name" (.str b.name) (patternParams b)).mapM
        (fun b => orRaise (N.trafficPattern b)) = .ok patterns := by
      rw [mapM_eq_ok, List.forall₂_map_left_iff, List.forall₂_same]
      exact fun b hb => orRaise_eq_ok.mpr
        (pattern_rowOf (h.sent.patterns b (hpatterns.mem_iff.mp hb)))
    rw [hmap]
    exact ⟨_, rfl, ⟨hpatterns.symm.trans (perm_partition patterns).symm, rfl, rfl, rfl⟩⟩

end

end Neo4j

end ControlPlane.Know
