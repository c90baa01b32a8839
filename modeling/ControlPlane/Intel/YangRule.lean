import ControlPlane.Intel.PushedRule

/-!
# The advertised model of a rule

`nos-iptables.yang` gives every leaf of a rule its type. `leafValue` is that type as a test, and
`InYang` what a payload has to be to lie in the model: its leaves in their value spaces, the
mandatory ones there, and the ports only under a protocol that has ports.

The validators check some of this: they look at the address of the source, the range of the time to
live and the action. `inYang_iff_of_accepted` says what they leave open (`FitsYang`).
-/

namespace ControlPlane.Intel

open Text Ip Secure

/-! ## Value spaces -/

/-- A number in digits, up to a bound. -/
def isNumber (max : ℕ) (s : String) : Bool :=
  s != "" && s.toList.all isDigit && decide (decimal s ≤ max)

/-- The type of `rule-id`: at most 64 letters, digits, underscores and hyphens. -/
def isRuleId (s : String) : Bool :=
  decide (1 ≤ s.toList.length ∧ s.toList.length ≤ 64) &&
    s.toList.all fun c => c.isAlphanum || c == '_' || c == '-'

/-- Four octets. -/
def isDotted (s : String) : Bool :=
  match split '.' s with
  | [a, b, c, d] => [a, b, c, d].all (isNumber 255)
  | _ => false

/-- The type of `src-ip` and `dst-ip`: four octets and a length. -/
def isPrefix (s : String) : Bool :=
  match split '/' s with
  | [addr, len] => isDotted addr && isNumber 32 len
  | _ => false

/-- The type of a port, in digits. -/
def isPort (s : String) : Bool := isNumber 65535 s && decide (1 ≤ decimal s)

/-- Whether a value lies in the value space of a leaf of the rule. -/
def leafValue : String → Json → Bool
  | "rule-id", .str s => isRuleId s
  | "action", .str s => decide (s ∈ VALID_ACTIONS)
  | "src-ip", .str s | "dst-ip", .str s => isPrefix s
  | "protocol", .str s => decide (s ∈ VALID_PROTOCOLS)
  | "src-port", .str s | "dst-port", .str s => isPort s
  | "priority", .int n => decide (1 ≤ n ∧ n ≤ 9999)
  | "source", .str s => decide (s ∈ VALID_SOURCES)
  | "comment", .str s => decide (s.toList.length ≤ 256)
  | "ttl-seconds", .int n => decide (0 ≤ n ∧ n ≤ 86400)
  | _, _ => false

/-- The protocols that have ports. -/
def PORT_PROTOCOLS : List String := ["tcp", "udp"]

/-- The payload of a rule lies in the model. -/
structure InYang (payload : List (String × Json)) : Prop where
  /-- Every leaf holds a value of its type. -/
  leaves : ∀ f ∈ payload, leafValue f.1 f.2 = true
  /-- The key and the mandatory leaf are there. -/
  mandatory : ∀ key ∈ ["rule-id", "action"], (Json.lookup key payload).isSome = true
  /-- A port is there only with a protocol that has ports. -/
  ports : ∀ key ∈ ["src-port", "dst-port"], (Json.lookup key payload).isSome = true →
    ∃ s ∈ PORT_PROTOCOLS, Json.lookup "protocol" payload = some (.str s)

/-! ## Prefixes -/

/-- The text after the slash is a length, or there is none. -/
def lengthOk (s : String) : Bool :=
  match split '/' s with
  | [_] => true
  | [_, len] => isNumber 32 len
  | _ => false

/-- A text that is pushed is a prefix when its first part is four octets and the rest a length. -/
theorem isPrefix_pushedSrc (s : String) :
    isPrefix (pushedSrc s) = (isDotted (firstPart '/' s) && lengthOk s) := by
  unfold pushedSrc contains isPrefix lengthOk firstPart
  split_ifs with h
  · -- A text with a slash is pushed as it is, and has at least two parts.
    simp only [decide_eq_true_eq] at h
    obtain ⟨p, m, hs, hp⟩ := List.eq_append_cons_of_mem h
    have hsplit : split '/' s = String.ofList p :: split '/' (String.ofList m) := by
      rw [← split_append_cons hp, ← hs, String.ofList_toList]
    obtain ⟨q, qs, hq⟩ : ∃ q qs, split '/' (String.ofList m) = q :: qs := by
      unfold split
      obtain ⟨q, qs, hq⟩ := List.exists_cons_of_ne_nil
        (List.splitOn_ne_nil '/' (String.ofList m).toList)
      rw [hq]
      exact ⟨_, _, rfl⟩
    rw [hsplit, hq]
    cases qs with
    | nil => rfl
    | cons q' qs => simp
  · simp only [decide_eq_true_eq] at h
    have hsplit : split '/' (s ++ "/32") = [s, "32"] := by
      have happ : s ++ "/32" = String.ofList (s.toList ++ '/' :: ['3', '2']) := by
        apply String.toList_injective
        simp
      rw [happ, split_append_cons h, String.ofList_toList]
      rfl
    rw [hsplit, split_of_not_mem h]
    simp only [List.headD_cons, Bool.and_true]
    rw [show isNumber 32 "32" = true by decide +kernel, Bool.and_true]

/-- An octet that the address reader takes is a number up to 255. -/
theorem isNumber_of_parseOctet {s : String} {n : Fin 256} (h : parseOctet s = some n) :
    isNumber 255 s = true := by
  obtain ⟨hne, hdigits⟩ := digits_of_parseOctet h
  have hle : decimal s ≤ 255 := by
    unfold parseOctet at h
    split_ifs at h with h1 h2 h3 h4 h5
    omega
  unfold isNumber
  rw [Bool.and_eq_true, Bool.and_eq_true]
  exact ⟨⟨by simpa using hne, List.all_eq_true.mpr hdigits⟩, by simpa using hle⟩

/-- A text that is read as an IPv4 address is four octets. -/
theorem isDotted_of_ipAddress {s : String} {a : Address} (h : ipAddress s = some a)
    (hv : a.version = .v4) : isDotted s = true := by
  obtain ⟨-, hint⟩ := ipv4Address_eq_some (ipv4Address_of_ipAddress h hv)
  unfold ipv4IntFromString at hint
  split at hint
  · next a b c d hmap =>
    obtain ⟨w, ws, hw, ha, hmap⟩ := List.map_eq_cons_iff.mp hmap
    obtain ⟨x, xs, rfl, hb, hmap⟩ := List.map_eq_cons_iff.mp hmap
    obtain ⟨y, ys, rfl, hc, hmap⟩ := List.map_eq_cons_iff.mp hmap
    obtain ⟨z, zs, rfl, hd, hmap⟩ := List.map_eq_cons_iff.mp hmap
    obtain rfl := List.map_eq_nil_iff.mp hmap
    unfold isDotted
    simp [hw, isNumber_of_parseOctet ha, isNumber_of_parseOctet hb, isNumber_of_parseOctet hc,
      isNumber_of_parseOctet hd]
  · simp at hint

/-- The source of a zone is pushed as a prefix when the text after its slash is a length. -/
theorem isPrefix_of_zone {s : String} {z : Zone} (h : ipToZone s = some z) :
    isPrefix (pushedSrc s) = lengthOk s := by
  obtain ⟨a, ha, hmem⟩ := ipToZone_eq_some.mp h
  have hdotted := isDotted_of_ipAddress ha (hmem.1.trans z.network_shape.1)
  rw [isPrefix_pushedSrc, hdotted, Bool.true_and]

/-! ## Ports -/

/-- How the interpreter of the front-end writes a value, and lowers a text. -/
structure Writes (py : Py) : Prop where
  /-- `str` of a text is the text. -/
  str : ∀ s, py.fmt (.str s) = s
  /-- `str` of an integer is its digits. -/
  int : ∀ n : ℤ, py.fmt (.int n) = toString n
  /-- `str` of a float is its `repr`. -/
  float : ∀ x : PyFloat, py.fmt (.float x) = x.repr
  /-- Lowering keeps a text of lower-case letters. -/
  lower : ∀ s : String, (∀ c ∈ s.toList, 'a' ≤ c ∧ c ≤ 'z') → py.lower s = s
  /-- Lowering leaves no text empty but the empty one. -/
  lower_ne : ∀ s, py.lower s = "" → s = ""

theorem Writes.lower_letters {py : Py} (hpy : Writes py) {s : String}
    (h : (s.toList.all fun c => 'a' ≤ c ∧ c ≤ 'z') = true) : py.lower s = s :=
  hpy.lower s fun c hc => of_decide_eq_true (List.all_eq_true.mp h c hc)

/-- A text with a character that is no digit is no number. -/
theorem isPort_of_not_digit {s : String} {c : Char} (hc : c ∈ s.toList) (hd : isDigit c = false) :
    isPort s = false := by
  have hall : s.toList.all isDigit = false := by
    rw [List.all_eq_false]
    exact ⟨c, hc, by simp [hd]⟩
  simp [isPort, isNumber, hall]

/-- The text of an integer is a port exactly when the integer is. -/
theorem isPort_toString (n : ℤ) : isPort (toString n) = true ↔ 1 ≤ n ∧ n ≤ 65535 := by
  rw [Int.toString_eq_repr, Int.repr_eq_if]
  split_ifs with hn
  · obtain ⟨k, rfl⟩ := Int.eq_ofNat_of_zero_le hn
    rw [Int.toNat_natCast, ← Nat.toString_eq_repr]
    have hne : toString k ≠ "" := by
      intro h0
      have hlist := toList_toString k
      rw [h0] at hlist
      exact Nat.toDigits_ne_nil hlist.symm
    have hall : (toString k).toList.all isDigit = true := by
      rw [List.all_eq_true, toList_toString]
      exact fun c hc => isDigit_of_mem_toDigits hc
    unfold isPort isNumber
    rw [hall, decimal_toString]
    simp only [Bool.and_true, Bool.and_eq_true, bne_iff_ne, ne_eq, hne, not_false_eq_true,
      decide_eq_true_eq, true_and]
    omega
  · rw [isPort_of_not_digit (c := '-') (by simp) (by decide)]
    simp only [Bool.false_eq_true, false_iff]
    omega

section

variable {go : Json → Option Json} {rule : PolicyRule} {py : Py}

/-- The text of a number is a port exactly when the number is, and it is never empty. -/
theorem isPort_fmt (hgo : Transcodes go) (hpy : Writes py) {n : ℤ} {v : Json}
    (hv : go (.int n) = some v) :
    (isPort (py.fmt v) = true ↔ 1 ≤ n ∧ n ≤ 65535) ∧ py.fmt v ≠ "" := by
  have hint : ∀ m : ℤ, py.fmt (.int m) ≠ "" := by
    intro m h0
    rw [hpy.int, Int.toString_eq_repr, Int.repr_eq_if] at h0
    split_ifs at h0
    · have hlist := toList_toString m.toNat
      rw [Nat.toString_eq_repr, h0] at hlist
      exact Nat.toDigits_ne_nil hlist.symm
    · simp at h0
  by_cases hn : |n| ≤ 2^53
  · rw [hgo.int n hn, Option.some.injEq] at hv
    subst hv
    refine ⟨?_, hint n⟩
    rw [hpy.int]
    exact isPort_toString n
  · push Not at hn
    have hout : ¬(1 ≤ n ∧ n ≤ 65535) := by
      rw [lt_abs] at hn
      omega
    obtain ⟨m, rfl, hm⟩ | ⟨q, repr, rfl, -, c, hc, hd⟩ := hgo.large n v hn hv
    · refine ⟨?_, hint m⟩
      rw [le_abs] at hm
      rw [hpy.int, isPort_toString]
      omega
    · rw [hpy.float]
      refine ⟨?_, ?_⟩
      · rw [isPort_of_not_digit hc hd]
        simpa using hout
      · rintro rfl
        simp at hc

/-! ## The rules that lie in the model -/

/-- What the validators leave open of the model. -/
structure FitsYang (py : Py) (rule : PolicyRule) : Prop where
  /-- The id is one. -/
  ruleId : isRuleId rule.ruleId = true
  /-- The text after the slash of the source is a length, or there is none. -/
  srcLength : lengthOk rule.srcIp = true
  /-- So it is for a destination, which has four octets before. -/
  dst : rule.dstIp ≠ "" → isDotted (firstPart '/' rule.dstIp) = true ∧ lengthOk rule.dstIp = true
  /-- The protocol is one of the four in lower case. -/
  protocol : rule.protocol ≠ "" → py.lower rule.protocol ∈ VALID_PROTOCOLS
  /-- A port is one, and its protocol has ports. -/
  port : rule.dstPort ≠ 0 → (1 ≤ rule.dstPort ∧ rule.dstPort ≤ 65535) ∧
    py.lower rule.protocol ∈ PORT_PROTOCOLS
  /-- The priority is at most four digits long. -/
  priority : 0 ≤ rule.priority ∧ rule.priority ≤ 9999
  /-- The comment is not too long. -/
  comment : rule.comment.toList.length ≤ 256
  /-- The time to live is at most a day. -/
  ttl : 0 ≤ rule.ttlSeconds ∧ rule.ttlSeconds ≤ 86400

/-- What holds of the fields of a cleaned payload holds of those that are not blank. -/
theorem forall_mem_clean {items : List (String × Json)} {P : String × Json → Prop} :
    (∀ f ∈ clean items, P f) ↔ ∀ f ∈ items, isBlank f.2 = false → P f := by
  unfold clean
  simp only [List.mem_filter, Bool.not_eq_true', and_imp]

/-- A text field of a cleaned payload holds a value of its type, or nothing. -/
theorem leaf_text {key s : String} :
    (isBlank (.str s) = false → leafValue key (.str s) = true) ↔
      (s ≠ "" → leafValue key (.str s) = true) := by
  simp [isBlank]

/-- The leaves of the data of a rule hold values of their types exactly when its fields fit. -/
theorem leaves_iff (hgo : Transcodes go) (hpy : Writes py) {z : Zone}
    (hz : ipToZone rule.srcIp = some z) (hid : rule.ruleId ≠ "") {action : String}
    (haction : action ∈ VALID_ACTIONS) {priority ttlSeconds : ℤ}
    (hport : rule.dstPort ≠ 0 → ∃ v, go (.int rule.dstPort) = some v)
    (hprio : Reads rule.priority 1000 priority) (httl : Reads rule.ttlSeconds 0 ttlSeconds) :
    (∀ f ∈ clean (arrivingData py go rule action priority ttlSeconds), leafValue f.1 f.2 = true) ↔
      isRuleId rule.ruleId = true ∧ lengthOk rule.srcIp = true ∧
      (rule.dstIp ≠ "" → isDotted (firstPart '/' rule.dstIp) = true ∧ lengthOk rule.dstIp = true) ∧
      (rule.protocol ≠ "" → py.lower rule.protocol ∈ VALID_PROTOCOLS) ∧
      (rule.dstPort ≠ 0 → 1 ≤ rule.dstPort ∧ rule.dstPort ≤ 65535) ∧
      (0 ≤ rule.priority ∧ rule.priority ≤ 9999) ∧ rule.comment.toList.length ≤ 256 ∧
      (0 ≤ rule.ttlSeconds ∧ rule.ttlSeconds ≤ 86400) := by
  have hsrc : leafValue "src-ip" (.str (pushedSrc rule.srcIp)) = lengthOk rule.srcIp :=
    isPrefix_of_zone hz
  have hdst : (pushedDst rule.dstIp ≠ "" →
      leafValue "dst-ip" (.str (pushedDst rule.dstIp)) = true) ↔
      (rule.dstIp ≠ "" → isDotted (firstPart '/' rule.dstIp) = true ∧
        lengthOk rule.dstIp = true) := by
    unfold pushedDst
    split_ifs with h0
    · simp [h0]
    · have hprefix := isPrefix_pushedSrc rule.dstIp
      rw [show leafValue "dst-ip" (.str (pushedSrc rule.dstIp)) = isPrefix (pushedSrc rule.dstIp)
        from rfl, hprefix, Bool.and_eq_true]
      simp [h0, pushedSrc_ne]
  have hproto : (py.lower (if rule.protocol = "" then "all" else rule.protocol) ≠ "" →
      leafValue "protocol"
        (.str (py.lower (if rule.protocol = "" then "all" else rule.protocol))) = true) ↔
      (rule.protocol ≠ "" → py.lower rule.protocol ∈ VALID_PROTOCOLS) := by
    split_ifs with h0
    · rw [hpy.lower_letters (s := "all") (by decide)]
      simp [h0, leafValue, VALID_PROTOCOLS]
    · have hne : py.lower rule.protocol ≠ "" := fun hl => h0 (hpy.lower_ne _ hl)
      simp [h0, hne, leafValue]
  have hdstPort : (py.fmt (if rule.dstPort = 0 then .str ""
        else (go (.int rule.dstPort)).getD (.int rule.dstPort)) ≠ "" →
      leafValue "dst-port" (.str (py.fmt (if rule.dstPort = 0 then .str ""
        else (go (.int rule.dstPort)).getD (.int rule.dstPort)))) = true) ↔
      (rule.dstPort ≠ 0 → 1 ≤ rule.dstPort ∧ rule.dstPort ≤ 65535) := by
    split_ifs with h0
    · simp [h0, hpy.str]
    · obtain ⟨v, hv⟩ := hport h0
      obtain ⟨hiff, hne⟩ := isPort_fmt hgo hpy hv
      rw [hv, Option.getD_some, ← hiff]
      simp [h0, hne, leafValue]
  have hpriority : leafValue "priority" (.int priority) = true ↔
      0 ≤ rule.priority ∧ rule.priority ≤ 9999 := by
    have hlo : -2^53 < (1 : ℤ) := by norm_num
    have hhi : (9999 : ℤ) < 2^53 := by norm_num
    have hread := hprio.mem_iff hlo hhi
    simp only [leafValue, decide_eq_true_eq, hread]
    split_ifs with h0
    · omega
    · omega
  have hseconds : leafValue "ttl-seconds" (.int ttlSeconds) = true ↔
      0 ≤ rule.ttlSeconds ∧ rule.ttlSeconds ≤ 86400 := by
    have hlo : -2^53 < (0 : ℤ) := by norm_num
    have hhi : (86400 : ℤ) < 2^53 := by norm_num
    have hread := httl.mem_iff hlo hhi
    simp only [leafValue, decide_eq_true_eq, hread]
    split_ifs with h0
    · omega
    · omega
  have hcomment : (rule.comment ≠ "" → leafValue "comment" (.str rule.comment) = true) ↔
      rule.comment.toList.length ≤ 256 := by
    by_cases h0 : rule.comment = ""
    · simp [h0]
    · simp [h0, leafValue]
  have hne : action ≠ "" := by
    rintro rfl
    simp [VALID_ACTIONS] at haction
  have hruleId : leafValue "rule-id" (.str rule.ruleId) = isRuleId rule.ruleId := rfl
  have hact : leafValue "action" (.str action) = true := decide_eq_true haction
  have hint : ∀ n : ℤ, isBlank (.int n) = false := fun _ => rfl
  have hsource : leafValue "source" (.str (py.lower "agent")) = true := by
    rw [hpy.lower_letters (s := "agent") (by decide)]
    decide
  -- One conjunct for each leaf, in the order of the data.
  rw [forall_mem_clean]
  unfold arrivingData
  simp only [List.forall_mem_cons, leaf_text, hdst, hproto, hdstPort, hcomment, hint, true_imp_iff]
  simp [hsrc, hpriority, hseconds, hsource, hpy.str, hid, hruleId, hact, pushedSrc_ne]

/-- The keys of the data of a rule are distinct. -/
theorem nodup_arrivingData (action : String) (priority ttlSeconds : ℤ) :
    ((arrivingData py go rule action priority ttlSeconds).map Prod.fst).Nodup := by
  simp [arrivingData]

/-- A port of the data of a rule meets a protocol with ports exactly when that of the rule does. -/
theorem ports_iff (hgo : Transcodes go) (hpy : Writes py) (action : String)
    (priority ttlSeconds : ℤ) (hport : rule.dstPort ≠ 0 → ∃ v, go (.int rule.dstPort) = some v) :
    (∀ key ∈ ["src-port", "dst-port"],
      (Json.lookup key (clean (arrivingData py go rule action priority ttlSeconds))).isSome = true →
      ∃ s ∈ PORT_PROTOCOLS, Json.lookup "protocol"
        (clean (arrivingData py go rule action priority ttlSeconds)) = some (.str s)) ↔
      (rule.dstPort ≠ 0 → py.lower rule.protocol ∈ PORT_PROTOCOLS) := by
  have hnd : ((arrivingData py go rule action priority ttlSeconds).map Prod.fst).Nodup :=
    nodup_arrivingData action priority ttlSeconds
  have hfilled := filled_clean (arrivingData py go rule action priority ttlSeconds)
  have hprotocol : Json.lookup "protocol" (arrivingData py go rule action priority ttlSeconds) =
      some (.str (py.lower (if rule.protocol = "" then "all" else rule.protocol))) := rfl
  -- An empty port is dropped, so a port that is there was one of the rule.
  have hblank : ∀ key, Json.lookup key (arrivingData py go rule action priority ttlSeconds) =
      some (.str "") → (Json.lookup key
        (clean (arrivingData py go rule action priority ttlSeconds))).isSome = false := by
    intro key hkey
    cases hl : Json.lookup key (clean (arrivingData py go rule action priority ttlSeconds)) with
    | none => rfl
    | some v =>
      have hv := (lookup_of_clean hnd hl).symm.trans hkey
      have hmem := hfilled _ (mem_of_lookup hl)
      exact absurd (Option.some.inj hv) hmem.2
  have hsrcPort := hblank "src-port" (by
    rw [show Json.lookup "src-port" (arrivingData py go rule action priority ttlSeconds) =
      some (.str (py.fmt (.str ""))) from rfl, hpy.str])
  simp only [List.mem_cons, List.not_mem_nil, or_false, forall_eq_or_imp, forall_eq, hsrcPort,
    Bool.false_eq_true, false_imp_iff, true_and]
  by_cases h0 : rule.dstPort = 0
  · have hdstPort := hblank "dst-port" (by
      rw [show Json.lookup "dst-port" (arrivingData py go rule action priority ttlSeconds) =
        some (.str (py.fmt (if rule.dstPort = 0 then .str ""
          else (go (.int rule.dstPort)).getD (.int rule.dstPort)))) from rfl, if_pos h0, hpy.str])
    simp [h0, hdstPort]
  · obtain ⟨v, hv⟩ := hport h0
    have hne := (isPort_fmt hgo hpy hv).2
    have hdstPort : Json.lookup "dst-port"
        (clean (arrivingData py go rule action priority ttlSeconds)) = some (.str (py.fmt v)) := by
      refine lookup_clean ?_ (by simpa [isBlank] using hne)
      rw [show Json.lookup "dst-port" (arrivingData py go rule action priority ttlSeconds) =
        some (.str (py.fmt (if rule.dstPort = 0 then .str ""
          else (go (.int rule.dstPort)).getD (.int rule.dstPort)))) from rfl, if_neg h0, hv,
        Option.getD_some]
    rw [hdstPort, Option.isSome_some]
    simp only [true_imp_iff, ne_eq, h0, not_false_eq_true]
    constructor
    · rintro ⟨s, hs, hl⟩
      have hlower := (lookup_of_clean hnd hl).symm.trans hprotocol
      simp only [Option.some.injEq, Json.str.injEq] at hlower
      subst hlower
      split_ifs at hs with hempty
      · rw [hpy.lower_letters (s := "all") (by decide)] at hs
        simp [PORT_PROTOCOLS] at hs
      · exact hs
    · intro hs
      have hempty : rule.protocol ≠ "" := by
        intro hempty
        rw [hempty, hpy.lower "" (by simp)] at hs
        simp [PORT_PROTOCOLS] at hs
      rw [if_neg hempty] at hprotocol
      refine ⟨_, hs, lookup_clean hprotocol ?_⟩
      have hlower : py.lower rule.protocol ≠ "" := fun hl => hempty (hpy.lower_ne _ hl)
      simpa [isBlank] using hlower

/-- A rule from a zone arrives in the model exactly when its fields fit. -/
theorem inYang_iff (hgo : Transcodes go) {sf : SfConfig} (hpy : Writes sf.py) {z : Zone}
    (hz : ipToZone rule.srcIp = some z) {payload : List (String × Json)}
    (h : Arrives go sf rule payload) : InYang payload ↔ FitsYang sf.py rule := by
  have hport := exists_of_arrives h
  obtain ⟨action, priority, ttlSeconds, haction, hid, hprio, httl, rfl⟩ := arrives_data hgo h
  have hne : action ≠ "" := by
    rintro rfl
    simp [VALID_ACTIONS] at haction
  have hleaves := leaves_iff hgo hpy hz hid haction hport hprio httl
  have hports := ports_iff hgo hpy action priority ttlSeconds hport
  constructor
  · rintro ⟨hl, -, hp⟩
    obtain ⟨h1, h2, h3, h4, h5, h6, h7, h8⟩ := hleaves.mp hl
    exact ⟨h1, h2, h3, h4, fun h0 => ⟨h5 h0, hports.mp hp h0⟩, h6, h7, h8⟩
  · rintro ⟨h1, h2, h3, h4, h5, h6, h7, h8⟩
    refine ⟨hleaves.mpr ⟨h1, h2, h3, h4, fun h0 => (h5 h0).1, h6, h7, h8⟩, ?_,
      hports.mpr fun h0 => (h5 h0).2⟩
    simp only [List.mem_cons, List.not_mem_nil, or_false, forall_eq_or_imp, forall_eq]
    have hruleId : Json.lookup "rule-id" (clean (arrivingData sf.py go rule action priority
        ttlSeconds)) = some (.str rule.ruleId) :=
      lookup_clean rfl (by simpa [isBlank] using hid)
    have hact : Json.lookup "action" (clean (arrivingData sf.py go rule action priority
        ttlSeconds)) = some (.str action) :=
      lookup_clean rfl (by simpa [isBlank] using hne)
    rw [hruleId, hact]
    exact ⟨rfl, rfl⟩

end

/-- What arrives for an intent that the validators accept lies in the model exactly when the fields
that they leave open fit. -/
theorem inYang_iff_of_accepted {go : Json → Option Json} (hgo : Transcodes go) {sf : SfConfig}
    (hpy : Writes sf.py) {py : Py} {kb : Knowledge} {intent : PolicyIntent} {sid ttlMin ttlMax : ℤ}
    {alertSrcIp : String}
    (hacc : (validateIntent py kb intent.toPolicyRule sid ttlMin ttlMax alertSrcIp).errors = [])
    {payload : List (String × Json)} (h : Arrives go sf intent.toPolicyRule payload) :
    InYang payload ↔ FitsYang sf.py intent.toPolicyRule := by
  obtain ⟨z, hz⟩ := zone_of_validateIntent hacc
  exact inYang_iff hgo hpy hz h

/-- The interpreter for concrete runs writes and lowers as the real one. -/
theorem writes_ascii (sha256 : String → String) (loads : String → Option Json) :
    Writes (.ascii sha256 loads) where
  str _ := rfl
  int _ := rfl
  float _ := rfl
  lower s hs := by
    have hmap : s.toList.map Char.toLower = s.toList := by
      refine (List.map_congr_left fun c hc => ?_).trans (List.map_id _)
      obtain ⟨hlow, -⟩ := hs c hc
      unfold Char.toLower
      rw [dif_neg]
      · rfl
      · rintro ⟨-, hle⟩
        rw [Char.le_def, UInt32.le_iff_toNat_le] at hlow
        rw [UInt32.le_iff_toNat_le] at hle
        exact absurd (hlow.trans hle) (by decide)
    unfold Py.ascii
    simp only
    rw [hmap, String.ofList_toList]
  lower_ne s hs := by
    unfold Py.ascii at hs
    simp only at hs
    have hlist := congrArg String.toList hs
    simpa using hlist

/-- The intent that drops a host with the given protocol. -/
def hostIntent (protocol : String) : PolicyIntent :=
  { dropRule "10.1.100.10/32" "" with protocol, reasoning := {} }

/-- The drop of a host over TCP arrives in the model. -/
theorem inYang_iff_of_accepted_tcp :
    ∃ payload, Arrives some plainSf (hostIntent "tcp").toPolicyRule payload ∧ InYang payload := by
  have hsome : ((arrivingRun (hostIntent "tcp").toPolicyRule).findSome? updatePayload).isSome =
      true := by
    decide +kernel
  obtain ⟨payload, hpayload⟩ := Option.isSome_iff_exists.mp hsome
  have harr := arrives_of_arrivingRun hpayload
  refine ⟨payload, harr, ?_⟩
  have hacc : (validateIntent plainAgent.py bareKnowledge (hostIntent "tcp").toPolicyRule 9000001
      60 3600 "10.1.100.10").errors = [] := by
    decide +kernel
  rw [inYang_iff_of_accepted transcodes_some (writes_ascii _ _) hacc harr]
  exact ⟨by decide +kernel, by decide +kernel, fun h => absurd rfl h, fun _ => by decide +kernel,
    fun h => absurd rfl h, by decide, by decide, by decide⟩

/-- The validators accept a drop over a protocol that the model does not have, and the front-end
pushes it. -/
theorem exists_accepted_not_inYang :
    ¬ ∀ (go : Json → Option Json), Transcodes go → ∀ (sf : SfConfig), Writes sf.py →
      ∀ (py : Py) (kb : Knowledge) (intent : PolicyIntent) (sid ttlMin ttlMax : ℤ)
      (alertSrcIp : String) (payload : List (String × Json)),
      (validateIntent py kb intent.toPolicyRule sid ttlMin ttlMax alertSrcIp).errors = [] →
      Arrives go sf intent.toPolicyRule payload → InYang payload := by
  intro hall
  have hsome : ((arrivingRun (hostIntent "gre").toPolicyRule).findSome? updatePayload).isSome =
      true := by
    decide +kernel
  obtain ⟨payload, hpayload⟩ := Option.isSome_iff_exists.mp hsome
  have harr := arrives_of_arrivingRun hpayload
  have hin := hall some transcodes_some plainSf (writes_ascii _ _) plainAgent.py bareKnowledge
    (hostIntent "gre") 9000001 60 3600 "10.1.100.10" payload (by decide +kernel) harr
  have hall := (inYang_iff transcodes_some (writes_ascii _ _) (z := .web) (by decide +kernel)
    harr).mp hin
  exact absurd (hall.protocol (by decide)) (by decide +kernel)

end ControlPlane.Intel
