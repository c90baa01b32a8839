import ControlPlane.Lib.Text
import ControlPlane.Lib.Cidr

/-!
# The `ipaddress` module

`ipAddress` and `ipNetwork` are `ipaddress.ip_address` and `ipaddress.ip_network` on a text, with
`none` for the `ValueError`. Both try the IPv4 reading first and then the IPv6 one. An IPv4 mask
is a prefix length or a netmask or hostmask in dotted form; an IPv6 mask is a prefix length.

The results that the clients use are at the end: a network text denotes the block around the
address before its slash (`mem_of_ipNetwork`), and a text that reads as IPv4 holds digits, dots and
at most one slash, so no white space (`no_space_of_ipNetwork`).
-/

namespace ControlPlane.Ip

open Text Cidr

/-- The two versions of the protocol. -/
inductive Version where
  | v4
  | v6
  deriving DecidableEq

/-- The number of bits of an address. -/
def Version.width : Version → ℕ
  | .v4 => 32
  | .v6 => 128

/-- An address: its version and its value as an integer. -/
structure Address where
  /-- The version. -/
  version : Version
  /-- The address as an integer. -/
  val : ℕ
  /-- The value fits the version's width. -/
  lt : val < 2^version.width
  deriving DecidableEq

/-- The address of a given integer, when the integer is in range. -/
def Address.ofInt (v : Version) (n : ℕ) : Option Address :=
  if h : n < 2^v.width then some ⟨v, n, h⟩ else none

/-- A network: its first address and the length of its prefix. -/
structure Network where
  /-- The version. -/
  version : Version
  /-- `network_address`, as an integer. -/
  base : ℕ
  /-- `prefixlen`. -/
  prefixlen : ℕ
  /-- The prefix is no longer than an address. -/
  prefixlen_le : prefixlen ≤ version.width
  /-- The first address fits the version's width. -/
  base_lt : base < 2^version.width
  /-- The host bits of the first address are zero. -/
  aligned : 2^(version.width - prefixlen) ∣ base
  deriving DecidableEq

namespace Network

/-- The addresses of the network as a block of integers. -/
def block (n : Network) : Block := ⟨n.base, n.version.width - n.prefixlen, n.aligned⟩

/-- `addr in net`: always false across versions. -/
instance : Membership Address Network := ⟨fun n a => a.version = n.version ∧ a.val ∈ n.block⟩

instance (a : Address) (n : Network) : Decidable (a ∈ n) :=
  inferInstanceAs (Decidable (a.version = n.version ∧ a.val ∈ n.block))

/-- Membership, by version and block. -/
theorem mem_def {a : Address} {n : Network} :
    a ∈ n ↔ a.version = n.version ∧ a.val ∈ n.block := Iff.rfl

/-- Membership, by version and bounds. -/
theorem mem_iff {a : Address} {n : Network} :
    a ∈ n ↔ a.version = n.version ∧ n.base ≤ a.val ∧
      a.val ≤ n.base + (2^(n.version.width - n.prefixlen) - 1) := Iff.rfl

/-- `net.subnet_of(other)`, with `none` for the `TypeError` across versions. -/
def subnetOf (n m : Network) : Option Bool :=
  if n.version = m.version then some (decide (m.base ≤ n.base ∧ n.block.last ≤ m.block.last))
  else none

/-- The network of a given prefix length around an address, as `strict=False` builds it. -/
def ofAddress (a : Address) (p : ℕ) (hp : p ≤ a.version.width) : Network :=
  ⟨a.version, (Block.ofAddr a.val (a.version.width - p)).base, p, hp,
    lt_of_le_of_lt (Nat.div_mul_le_self _ _) a.lt,
    (Block.ofAddr a.val (a.version.width - p)).aligned⟩

/-- Every address of `n` is an address of `m`. -/
def Subset (n m : Network) : Prop := ∀ a : Address, a ∈ n → a ∈ m

/-- An address is in the network around it. -/
theorem mem_ofAddress (a : Address) (p : ℕ) (hp : p ≤ a.version.width) :
    a ∈ ofAddress a p hp :=
  ⟨rfl, Block.mem_ofAddr _ _⟩

/-- A network ends within its version's width. -/
theorem last_lt (n : Network) : n.block.last < 2^n.version.width := by
  obtain ⟨k, hk⟩ := n.aligned
  have hlt := n.base_lt
  have hw : 2^n.version.width = 2^(n.version.width - n.prefixlen) * 2^n.prefixlen := by
    rw [← pow_add, Nat.sub_add_cancel n.prefixlen_le]
  unfold Block.last block
  simp only
  have hpos := Nat.two_pow_pos (n.version.width - n.prefixlen)
  rw [hk, hw] at hlt
  have hkp : k + 1 ≤ 2^n.prefixlen := Nat.lt_of_mul_lt_mul_left hlt
  have hle := Nat.mul_le_mul_left (2^(n.version.width - n.prefixlen)) hkp
  rw [Nat.mul_add, Nat.mul_one] at hle
  rw [hk, hw]
  omega

/-- The first address of a network. -/
def first (n : Network) : Address := ⟨n.version, n.base, n.base_lt⟩

/-- The first address of a network is in it. -/
theorem first_mem (n : Network) : n.first ∈ n := ⟨rfl, n.block.base_mem⟩

/-- For networks of one version, inclusion is inclusion of their blocks. -/
theorem subset_iff_block {n m : Network} (hv : n.version = m.version) :
    n.Subset m ↔ n.block.Subset m.block := by
  constructor
  · intro h
    rw [Block.subset_iff]
    exact ⟨(h n.first n.first_mem).2.1, (h ⟨n.version, _, n.last_lt⟩ ⟨rfl, n.block.last_mem⟩).2.2⟩
  · intro h a ha
    exact ⟨ha.1.trans hv, h _ ha.2⟩

/-- A network inside another has its version. -/
theorem version_eq_of_subset {n m : Network} (h : n.Subset m) : n.version = m.version :=
  (h n.first n.first_mem).1

/-- `subnet_of` answers whether every address of the first network is in the second. -/
theorem subnetOf_eq_some_true {n m : Network} : n.subnetOf m = some true ↔ n.Subset m := by
  unfold subnetOf
  by_cases hv : n.version = m.version
  · rw [if_pos hv, subset_iff_block hv, Block.subset_iff]
    simp only [Option.some.injEq, decide_eq_true_eq]
    exact Iff.rfl
  · rw [if_neg hv]
    simp only [reduceCtorEq, false_iff]
    exact fun h => hv (version_eq_of_subset h)

/-- Of two networks with a common address, one lies inside the other exactly when its prefix is at
least as long. -/
theorem subset_iff_prefixlen_le {a : Address} {n m : Network} (hn : a ∈ n) (hm : a ∈ m) :
    n.Subset m ↔ m.prefixlen ≤ n.prefixlen := by
  have hv : n.version = m.version := hn.1.symm.trans hm.1
  rw [subset_iff_block hv, Block.subset_iff_host_le hn.2 hm.2]
  have h1 := n.prefixlen_le
  have h2 := m.prefixlen_le
  simp only [block, hv]
  rw [hv] at h1
  omega

/-- Two networks have an address in common exactly when one lies inside the other. -/
theorem exists_mem_iff {n m : Network} :
    (∃ a : Address, a ∈ n ∧ a ∈ m) ↔ n.Subset m ∨ m.Subset n := by
  constructor
  · rintro ⟨a, hn, hm⟩
    rw [subset_iff_prefixlen_le hn hm, subset_iff_prefixlen_le hm hn]
    omega
  · rintro (h | h)
    · exact ⟨n.first, n.first_mem, h _ n.first_mem⟩
    · exact ⟨m.first, h _ m.first_mem, m.first_mem⟩

/-- Networks are nested or disjoint: when an address of `n` is outside `m`, the two have an address
in common exactly when `m` lies inside `n`. -/
theorem exists_mem_iff_subset {a : Address} {n m : Network} (hn : a ∈ n) (hm : a ∉ m) :
    (∃ x : Address, x ∈ n ∧ x ∈ m) ↔ m.Subset n := by
  constructor
  · rintro ⟨x, hxn, hxm⟩
    have hv : m.version = n.version := hxm.1.symm.trans hxn.1
    rw [subset_iff_block hv]
    have hout : a.val ∉ m.block := fun h => hm ⟨hn.1.trans hv.symm, h⟩
    exact (Block.exists_mem_iff_subset hn.2 hout).mp ⟨x.val, hxn.2, hxm.2⟩
  · intro h
    exact ⟨m.first, h _ m.first_mem, m.first_mem⟩

end Network

/-! ## Reading addresses -/

/-- `_parse_octet`: one to three decimal digits without a leading zero, at most 255. -/
def parseOctet (s : String) : Option (Fin 256) :=
  if s = "" then none
  else if !s.toList.all isDigit then none
  else if s.toList.length > 3 then none
  else if s ≠ "0" ∧ s.toList.head? = some '0' then none
  else if h : decimal s < 256 then some ⟨decimal s, h⟩ else none

/-- `IPv4Address._ip_int_from_string`. -/
def ipv4IntFromString (s : String) : Option ℕ :=
  match (split '.' s).map parseOctet with
  | [some a, some b, some c, some d] => some (((a.val * 256 + b) * 256 + c) * 256 + d)
  | _ => none

/-- `IPv4Address(s)`. -/
def ipv4Address (s : String) : Option Address :=
  if contains '/' s then none else (ipv4IntFromString s).bind (Address.ofInt .v4)

/-- The value of a hexadecimal digit. -/
def hexVal (c : Char) : Option ℕ :=
  let n := c.toNat
  if 48 ≤ n ∧ n ≤ 57 then some (n - 48)
  else if 65 ≤ n ∧ n ≤ 70 then some (n - 55)
  else if 97 ≤ n ∧ n ≤ 102 then some (n - 87)
  else none

/-- `_parse_hextet`: one to four hexadecimal digits. -/
def parseHextet (s : String) : Option ℕ :=
  if s = "" ∨ s.toList.length > 4 then none
  else (s.toList.mapM hexVal).map (·.foldl (fun n d => 16 * n + d) 0)

/-- The colon-separated parts of an IPv6 text, with an IPv4 suffix turned into two hextets. -/
def ipv6Parts (s : String) : Option (List String) :=
  let parts := split ':' s
  if parts.length < 3 then none
  else if contains '.' (parts.getLastD "") then
    (ipv4IntFromString (parts.getLastD "")).map fun n =>
      parts.dropLast ++ [String.ofList (Nat.toDigits 16 (n / 65536)),
        String.ofList (Nat.toDigits 16 (n % 65536))]
  else some parts

/-- The integer of the hextets before and after a run of `skipped` zero hextets. -/
def fromHextets (hi lo : List String) (skipped : ℕ) : Option ℕ :=
  match hi.mapM parseHextet, lo.mapM parseHextet with
  | some his, some los =>
    some ((his ++ List.replicate skipped 0 ++ los).foldl (fun n h => 65536 * n + h) 0)
  | _, _ => none

/-- `IPv6Address._ip_int_from_string`. -/
def ipv6IntFromString (s : String) : Option ℕ :=
  match ipv6Parts s with
  | none => none
  | some parts =>
    let len := parts.length
    if len > 9 then none
    else
      -- The places where a run of zeros is skipped, the two ends aside.
      match (List.range len).filter (fun i => 1 ≤ i && i < len - 1 && parts.getD i "" == "") with
      | [] => if len ≠ 8 then none else fromHextets parts [] 0
      | [i] =>
        let hi := if parts.headD "" = "" then i - 1 else i
        let lo := if parts.getLastD "" = "" then len - i - 2 else len - i - 1
        if parts.headD "" = "" ∧ hi ≠ 0 then none
        else if parts.getLastD "" = "" ∧ lo ≠ 0 then none
        else if 8 ≤ hi + lo then none
        else fromHextets (parts.take hi) (parts.drop (len - lo)) (8 - (hi + lo))
      | _ => none

/-- `_split_scope_id`: the address before a non-empty scope. -/
def splitScopeId (s : String) : Option String :=
  match split '%' s with
  | [addr] => some addr
  | [addr, scope] => if scope = "" then none else some addr
  | _ => none

/-- `IPv6Address(s)`. -/
def ipv6Address (s : String) : Option Address :=
  if contains '/' s then none
  else (splitScopeId s).bind fun addr => (ipv6IntFromString addr).bind (Address.ofInt .v6)

/-- `ipaddress.ip_address(s)`. -/
def ipAddress (s : String) : Option Address :=
  match ipv4Address s with
  | some a => some a
  | none => ipv6Address s

/-! ## Reading networks -/

/-- `_prefix_from_prefix_string`: decimal digits, at most the width. `int` refuses more than 4300
digits. -/
def prefixFromString (w : ℕ) (m : String) : Option ℕ :=
  if m = "" ∨ !m.toList.all isDigit ∨ 4300 < m.toList.length then none
  else if decimal m ≤ w then some (decimal m) else none

/-- `_prefix_from_ip_int`: the number of leading ones of a 32-bit netmask. -/
def prefixFromIpInt (n : ℕ) : Option ℕ := (List.range 33).find? fun p => n == 2^32 - 2^(32 - p)

/-- `_prefix_from_ip_string`: a netmask, or else a hostmask, in dotted form. -/
def prefixFromIpString (m : String) : Option ℕ :=
  match ipv4IntFromString m with
  | none => none
  | some n =>
    match prefixFromIpInt n with
    | some p => some p
    | none => prefixFromIpInt (2^32 - 1 - n)

/-- `_make_netmask`, which gives a text without a mask the full length. -/
def makeNetmask (v : Version) : Option String → Option ℕ
  | none => some v.width
  | some m =>
    match v with
    | .v4 =>
      match prefixFromString 32 m with
      | some p => some p
      | none => prefixFromIpString m
    | .v6 => prefixFromString 128 m

/-- The text before the slash, and the mask after it when there is one. -/
def splitAddrPrefix (s : String) : Option (String × Option String) :=
  match split '/' s with
  | [addr] => some (addr, none)
  | [addr, mask] => some (addr, some mask)
  | _ => none

/-- The network of an address and a mask. Under `strict` the host bits must be zero. -/
def networkOf (strict : Bool) (a : Address) (mask : Option String) : Option Network :=
  match makeNetmask a.version mask with
  | none => none
  | some p =>
    if hp : p ≤ a.version.width then
      if strict && (Network.ofAddress a p hp).base != a.val then none
      else some (Network.ofAddress a p hp)
    else none

/-- `IPv4Network(s, strict)`. -/
def ipv4Network (strict : Bool) (s : String) : Option Network :=
  match splitAddrPrefix s with
  | none => none
  | some (addr, mask) => (ipv4Address addr).bind fun a => networkOf strict a mask

/-- `IPv6Network(s, strict)`. -/
def ipv6Network (strict : Bool) (s : String) : Option Network :=
  match splitAddrPrefix s with
  | none => none
  | some (addr, mask) => (ipv6Address addr).bind fun a => networkOf strict a mask

/-- `ipaddress.ip_network(s, strict)`. -/
def ipNetwork (strict : Bool) (s : String) : Option Network :=
  match ipv4Network strict s with
  | some n => some n
  | none => ipv6Network strict s

/-! ## Writing networks -/

/-- An IPv4 address in dotted form. -/
def ipv4String (n : ℕ) : String :=
  ".".intercalate ([n / 2^24, n / 2^16 % 256, n / 2^8 % 256, n % 256].map toString)

/-- The length of the run of zero hextets at the front. -/
def zeroRun (hextets : List String) : ℕ := (hextets.takeWhile (· == "0")).length

/-- `_compress_hextets`: the first of the longest runs of zeros is left out. -/
def compressHextets (hextets : List String) : List String :=
  let runs := (List.range hextets.length).map fun i => zeroRun (hextets.drop i)
  let len := runs.foldl max 0
  let start := runs.findIdx (· == len)
  if 1 < len then
    (if start = 0 then [""] else []) ++ hextets.take start ++ [""] ++ hextets.drop (start + len)
      ++ (if start + len = hextets.length then [""] else [])
  else hextets

/-- An IPv6 address in compressed form. -/
def ipv6String (n : ℕ) : String :=
  ":".intercalate (compressHextets ((List.range 8).map fun i =>
    String.ofList (Nat.toDigits 16 (n / 65536^(7 - i) % 65536))))

/-- `str(net)`. -/
def Network.str (n : Network) : String :=
  (match n.version with
    | .v4 => ipv4String n.base
    | .v6 => ipv6String n.base) ++ "/" ++ toString n.prefixlen

/-! ## What a text that reads as an address or a network looks like -/

/-- An ASCII digit is no white space. -/
theorem isSpace_of_isDigit {c : Char} (h : isDigit c = true) : isSpace c = false := by
  simp only [isDigit, Bool.and_eq_true, decide_eq_true_eq] at h
  simp only [isSpace, Bool.or_eq_false_iff, Bool.and_eq_false_iff, decide_eq_false_iff_not,
    beq_eq_false_iff_ne]
  omega

/-- An octet is a non-empty text of digits. -/
theorem digits_of_parseOctet {s : String} {n : Fin 256} (h : parseOctet s = some n) :
    s ≠ "" ∧ ∀ c ∈ s.toList, isDigit c = true := by
  unfold parseOctet at h
  split_ifs at h with h1 h2
  all_goals simp_all

/-- An IPv4 text holds digits and dots. -/
theorem chars_of_ipv4 {s : String} {n : ℕ} (h : ipv4IntFromString s = some n) :
    ∀ c ∈ s.toList, c = '.' ∨ isDigit c = true := by
  intro c hc
  rcases mem_or_mem_split '.' hc with hdot | ⟨p, hp, hcp⟩
  · exact .inl hdot
  · right
    -- Each of the four parts was read by `parseOctet`.
    have hoctet : ∃ k, parseOctet p = some k := by
      unfold ipv4IntFromString at h
      split at h
      · next a b c d heq =>
        have hm : parseOctet p ∈ (split '.' s).map parseOctet := List.mem_map_of_mem hp
        rw [heq] at hm
        simp only [List.mem_cons, List.not_mem_nil, or_false] at hm
        rcases hm with hm | hm | hm | hm
        · exact ⟨_, hm⟩
        · exact ⟨_, hm⟩
        · exact ⟨_, hm⟩
        · exact ⟨_, hm⟩
      · simp at h
    obtain ⟨k, hk⟩ := hoctet
    exact (digits_of_parseOctet hk).2 c hcp

/-- An IPv4 text holds no white space. -/
theorem no_space_of_ipv4 {s : String} {n : ℕ} (h : ipv4IntFromString s = some n) :
    ∀ c ∈ s.toList, isSpace c = false := by
  intro c hc
  rcases chars_of_ipv4 h c hc with rfl | hd
  · rfl
  · exact isSpace_of_isDigit hd

/-- What an IPv4 address text reads as. -/
theorem ipv4Address_eq_some {s : String} {a : Address} (h : ipv4Address s = some a) :
    a.version = .v4 ∧ ipv4IntFromString s = some a.val := by
  unfold ipv4Address at h
  split_ifs at h
  obtain ⟨n, hn, ha⟩ := Option.bind_eq_some_iff.mp h
  unfold Address.ofInt at ha
  split_ifs at ha
  simp only [Option.some.injEq] at ha
  subst ha
  exact ⟨rfl, hn⟩

/-- What an IPv6 address text reads as. -/
theorem version_of_ipv6Address {s : String} {a : Address} (h : ipv6Address s = some a) :
    a.version = .v6 := by
  unfold ipv6Address at h
  split_ifs at h
  obtain ⟨addr, -, h⟩ := Option.bind_eq_some_iff.mp h
  obtain ⟨n, -, ha⟩ := Option.bind_eq_some_iff.mp h
  unfold Address.ofInt at ha
  split_ifs at ha
  simp only [Option.some.injEq] at ha
  rw [← ha]

/-- No text reads as an address of both versions: an IPv4 text has no colon. -/
theorem ipv6Address_of_ipv4Address {s : String} {a : Address} (h : ipv4Address s = some a) :
    ipv6Address s = none := by
  have hchars := chars_of_ipv4 (ipv4Address_eq_some h).2
  have hnot : ∀ x : Char, x ≠ '.' → isDigit x = false → x ∉ s.toList := by
    intro x hx hd hm
    rcases hchars x hm with rfl | hd'
    · exact hx rfl
    · simp [hd] at hd'
  have hscope : splitScopeId s = some s := by
    rw [splitScopeId, split_of_not_mem (hnot '%' (by decide) (by decide))]
  have hparts : ipv6Parts s = none := by
    rw [ipv6Parts, split_of_not_mem (hnot ':' (by decide) (by decide))]
    rfl
  unfold ipv6Address
  split_ifs
  · rfl
  · simp [hscope, ipv6IntFromString, hparts]

/-- A text read as an IPv4 address is read so by `ip_address`. -/
theorem ipAddress_of_ipv4Address {s : String} {a : Address} (h : ipv4Address s = some a) :
    ipAddress s = some a := by
  rw [ipAddress, h]

/-- An address of version 4 comes from the IPv4 reading. -/
theorem ipv4Address_of_ipAddress {s : String} {a : Address} (h : ipAddress s = some a)
    (hv : a.version = .v4) : ipv4Address s = some a := by
  unfold ipAddress at h
  split at h
  · next b hb => rw [hb]; exact h
  · rw [version_of_ipv6Address h] at hv
    simp at hv

/-- An address text holds no slash, so it is its own first part. -/
theorem firstPart_of_ipAddress {s : String} {a : Address} (h : ipAddress s = some a) :
    '/' ∉ s.toList ∧ firstPart '/' s = s := by
  have hno : '/' ∉ s.toList := by
    intro hm
    have hc : contains '/' s = true := by simpa [contains] using hm
    simp [ipAddress, ipv4Address, ipv6Address, hc] at h
  refine ⟨hno, ?_⟩
  rw [firstPart, split_of_not_mem hno]
  rfl

/-- An IPv4 address text holds no white space. -/
theorem no_space_of_ipAddress {s : String} {a : Address} (h : ipAddress s = some a)
    (hv : a.version = .v4) : ∀ c ∈ s.toList, isSpace c = false :=
  no_space_of_ipv4 (ipv4Address_eq_some (ipv4Address_of_ipAddress h hv)).2

/-- The text before the slash. -/
theorem fst_of_splitAddrPrefix {s addr : String} {mask : Option String}
    (h : splitAddrPrefix s = some (addr, mask)) : addr = firstPart '/' s := by
  unfold splitAddrPrefix at h
  unfold firstPart
  split at h
  · next heq => rw [heq]; simp_all
  · next heq => rw [heq]; simp_all
  · simp at h

/-- A network built from an address holds it. -/
theorem mem_of_networkOf {strict : Bool} {a : Address} {mask : Option String} {n : Network}
    (h : networkOf strict a mask = some n) : a ∈ n := by
  unfold networkOf at h
  split at h
  · simp at h
  · split_ifs at h
    simp only [Option.some.injEq] at h
    subst h
    exact Network.mem_ofAddress _ _ _

/-- A network text denotes a network around the address before its slash. -/
theorem mem_of_ipNetwork {strict : Bool} {s : String} {n : Network}
    (h : ipNetwork strict s = some n) : ∃ a, ipAddress (firstPart '/' s) = some a ∧ a ∈ n := by
  unfold ipNetwork at h
  split at h
  · next n' hn =>
    simp only [Option.some.injEq] at h
    subst h
    unfold ipv4Network at hn
    split at hn
    · simp at hn
    · next addr mask hsplit =>
      obtain ⟨a, ha, hnet⟩ := Option.bind_eq_some_iff.mp hn
      rw [fst_of_splitAddrPrefix hsplit] at ha
      exact ⟨a, ipAddress_of_ipv4Address ha, mem_of_networkOf hnet⟩
  · unfold ipv6Network at h
    split at h
    · simp at h
    · next addr mask hsplit =>
      obtain ⟨a, ha, hnet⟩ := Option.bind_eq_some_iff.mp h
      rw [fst_of_splitAddrPrefix hsplit] at ha
      refine ⟨a, ?_, mem_of_networkOf hnet⟩
      -- No text is read both as an IPv4 and as an IPv6 address.
      unfold ipAddress
      split
      · next b hb => rw [ipv6Address_of_ipv4Address hb] at ha; simp at ha
      · exact ha

/-- A network of version 4 comes from the IPv4 reading. -/
theorem ipv4Network_of_ipNetwork {strict : Bool} {s : String} {n : Network}
    (h : ipNetwork strict s = some n) (hv : n.version = .v4) : ipv4Network strict s = some n := by
  unfold ipNetwork at h
  split at h
  · next n' hn => rw [hn]; exact h
  · unfold ipv6Network at h
    split at h
    · simp at h
    · obtain ⟨a, ha, hnet⟩ := Option.bind_eq_some_iff.mp h
      have hva := version_of_ipv6Address ha
      rw [(mem_of_networkOf hnet).1, hv] at hva
      simp at hva

/-- A mask that `_make_netmask` accepts for version 4 holds no white space. -/
theorem no_space_of_makeNetmask {m : String} {p : ℕ} (h : makeNetmask .v4 (some m) = some p) :
    ∀ c ∈ m.toList, isSpace c = false := by
  simp only [makeNetmask] at h
  split at h
  · next q hq =>
    unfold prefixFromString at hq
    split_ifs at hq with h1
    intro c hc
    apply isSpace_of_isDigit
    simp only [not_or, Bool.not_eq_true, Bool.not_eq_false', List.all_eq_true] at h1
    exact h1.2.1 c hc
  · unfold prefixFromIpString at h
    split at h
    · simp at h
    · next n hn => exact no_space_of_ipv4 hn

/-- An IPv4 network text holds no white space. -/
theorem no_space_of_ipNetwork {strict : Bool} {s : String} {n : Network}
    (h : ipNetwork strict s = some n) (hv : n.version = .v4) :
    ∀ c ∈ s.toList, isSpace c = false := by
  have h4 := ipv4Network_of_ipNetwork h hv
  unfold ipv4Network at h4
  split at h4
  · simp at h4
  · next addr mask hsplit =>
    obtain ⟨a, ha, hnet⟩ := Option.bind_eq_some_iff.mp h4
    obtain ⟨hva, hint⟩ := ipv4Address_eq_some ha
    have haddr := no_space_of_ipv4 hint
    -- A character of the text is the slash, or one of the address or of the mask.
    intro c hc
    rcases mem_or_mem_split '/' hc with rfl | ⟨p, hp, hcp⟩
    · rfl
    · unfold splitAddrPrefix at hsplit
      split at hsplit
      · next heq =>
        rw [heq] at hp
        simp_all
      · next x y heq =>
        rw [heq] at hp
        simp only [Option.some.injEq, Prod.mk.injEq] at hsplit
        obtain ⟨rfl, rfl⟩ := hsplit
        simp only [List.mem_cons, List.not_mem_nil, or_false] at hp
        rcases hp with rfl | rfl
        · exact haddr c hcp
        · unfold networkOf at hnet
          split at hnet
          · simp at hnet
          · next q hq =>
            rw [hva] at hq
            exact no_space_of_makeNetmask hq c hcp
      · simp at hsplit

/-- An IPv4 address text, alone or with `/32` appended, denotes the network of that one address. -/
theorem ipNetwork_host {s : String} {a : Address} (h : ipv4Address s = some a) :
    (∃ n, ipNetwork false s = some n ∧ n.prefixlen = 32 ∧ a ∈ n) ∧
      ∃ n, ipNetwork false (s ++ "/32") = some n ∧ n.prefixlen = 32 ∧ a ∈ n := by
  obtain ⟨hv, hint⟩ := ipv4Address_eq_some h
  have hslash : '/' ∉ s.toList := by
    intro hm
    have hc := chars_of_ipv4 hint '/' hm
    revert hc
    decide
  have hw : 32 ≤ a.version.width := by rw [hv]; exact le_refl _
  -- The two texts differ in the mask that is split off, and both masks are the full length.
  have h1 : splitAddrPrefix s = some (s, none) := by
    rw [splitAddrPrefix, split_of_not_mem hslash]
  have h2 : splitAddrPrefix (s ++ "/32") = some (s, some "32") := by
    have hs : s ++ "/32" = String.ofList (s.toList ++ '/' :: ['3', '2']) := by
      apply String.toList_inj.mp
      simp
    rw [splitAddrPrefix, hs, split_append_cons hslash, String.ofList_toList]
    rfl
  have hnone : networkOf false a none = some (Network.ofAddress a 32 hw) := by
    have : makeNetmask a.version none = some 32 := by rw [hv]; rfl
    simp [networkOf, this, hw]
  have hsome : networkOf false a (some "32") = some (Network.ofAddress a 32 hw) := by
    have : makeNetmask a.version (some "32") = some 32 := by rw [hv]; rfl
    simp [networkOf, this, hw]
  refine ⟨⟨_, ?_, rfl, Network.mem_ofAddress a 32 hw⟩, ⟨_, ?_, rfl, Network.mem_ofAddress a 32 hw⟩⟩
  · simp [ipNetwork, ipv4Network, h1, h, hnone]
  · simp [ipNetwork, ipv4Network, h2, h, hsome]

end ControlPlane.Ip
