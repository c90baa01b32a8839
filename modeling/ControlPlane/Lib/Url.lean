import ControlPlane.Lib.PercentEncoding
import Mathlib.Data.List.DropRight

/-!
# Request targets in Go and in Python

What `net/url` and `net/http` of Go make of a URL, after its host, and of the target of a request,
and how `http.server` of Python reads the path of a request line. Texts are their bytes. Go writes a
path as it stands when every byte of it may stand in one, and otherwise escapes what it reads the
path as; Python takes the path as it is on the line.
-/

namespace ControlPlane.Url

open Percent

/-- `/`. -/
def slash : UInt8 := 47

/-- `?`. -/
def question : UInt8 := 63

/-- `#`. -/
def hash : UInt8 := 35

/-- The bytes of a text. -/
def bytes (s : String) : List UInt8 := Utf8.encode s.toList

/-- A byte that `net/url` takes for a control character. -/
def isCtl (c : UInt8) : Bool := c < 32 || c == 127

/-- An ASCII letter or digit. -/
def isAlnum (c : UInt8) : Bool :=
  (97 ≤ c && c ≤ 122) || (65 ≤ c && c ≤ 90) || (48 ≤ c && c ≤ 57)

/-- `!shouldEscape(c, encodePath)`. -/
def keepPath (c : UInt8) : Bool := isAlnum c || (bytes "-_.~$&+,/:;=@").contains c

/-- `validEncoded`, of a byte. -/
def validByte (c : UInt8) : Bool := (bytes "!$&'()*+,;=:@[]%").contains c || keepPath c

/-- `validEncoded`. -/
def validEncoded (s : List UInt8) : Bool := s.all validByte

/-- `EscapedPath`, of a path that was parsed from a text. -/
def escapedPath (raw path : List UInt8) : List UInt8 :=
  if validEncoded raw then raw else escape keepPath path

/-- The path of a text that may have a query and a fragment. -/
def pathPart (s : List UInt8) : List UInt8 := s.takeWhile fun c => c ≠ question ∧ c ≠ hash

/-- `url.Parse` and `RequestURI`: the target of a request to a URL, from its path on, when it can be
parsed. -/
def requestUri (url : List UInt8) : Option (List UInt8) :=
  if url.any isCtl then none
  else do
    let rest := url.takeWhile (· ≠ hash)
    let raw := rest.takeWhile (· ≠ question)
    let _ ← unescape ((url.dropWhile (· ≠ hash)).drop 1)
    let path ← unescape raw
    return escapedPath raw path ++ rest.dropWhile (· ≠ question)

/-- Whether `cleanPath` leaves a path as it is: there are no dot segments, and no empty ones. -/
def isClean (path : List UInt8) : Bool :=
  match path.splitOn slash with
  | [] :: segments =>
    segments.all (fun s => s ≠ bytes "." ∧ s ≠ bytes "..") && segments.dropLast.all (· ≠ [])
  | _ => false

/-- The path of a request that `ServeMux` hands to the handler of a subtree. Other requests for it
are redirected, or are refused with their target. -/
def muxPath (subtree target : List UInt8) : Option (List UInt8) := do
  let raw := target.takeWhile (· ≠ question)
  let path ← unescape raw
  if isClean (escapedPath raw path) ∧ subtree <+: path then return path else none

/-- `strings.TrimSuffix(s, "/")`. -/
def trimSlash (s : List UInt8) : List UInt8 := if s.getLast? = some slash then s.dropLast else s

/-- The last of the parts that a text is split into at the slashes. -/
def lastSegment (s : List UInt8) : List UInt8 := s.rtakeWhile (· ≠ slash)

/-- White space for `str.split`, among the characters below 256. -/
def isSpace (c : UInt8) : Bool :=
  c == 32 || (9 ≤ c && c ≤ 13) || (28 ≤ c && c ≤ 31) || c == 133 || c == 160

/-- `s.split()`. -/
def words (s : List UInt8) : List (List UInt8) := (s.splitOnP fun c => isSpace c).filter (· ≠ [])

/-- `self.path` of a `DELETE` in `http.server`: the request line has three words, and at most 65536
bytes. -/
def requestPath (target : List UInt8) : Option (List UInt8) :=
  if (bytes "DELETE ").length + target.length + (bytes " HTTP/1.1\r\n").length > 65536 then none
  else
    match words target with
    | [path] => some path
    | _ => none

/-! ## Bytes of a path -/

section Bytes

set_option maxRecDepth 4096

/-- A byte that may stand in a path is neither white space, nor a control character, nor one that
ends a path. -/
theorem of_validByte : ∀ c : UInt8, validByte c = true →
    isSpace c = false ∧ isCtl c = false ∧ c ≠ question ∧ c ≠ hash ∧ c < 128 :=
  Utf8.forall_byte (by decide)

theorem of_hexValue : ∀ c : UInt8, (hexValue c).isSome = true → keepPath c = true ∧ c ≠ slash :=
  Utf8.forall_byte (by decide)

end Bytes

theorem validByte_of_keepPath {c : UInt8} (h : keepPath c = true) : validByte c = true := by
  unfold validByte
  rw [h, Bool.or_true]

/-- An escaped path may stand as it is. -/
theorem validEncoded_escape (s : List UInt8) : validEncoded (escape keepPath s) = true := by
  refine List.all_eq_true.mpr fun c hc => ?_
  obtain ⟨hkeep, -⟩ | rfl | hdigit := of_mem_escape hc
  · exact validByte_of_keepPath hkeep
  · decide
  · exact validByte_of_keepPath (of_hexValue c hdigit).1

/-- The path that is written reads as the path that was read. -/
theorem decode_escapedPath {raw path : List UInt8} (h : unescape raw = some path) :
    decode (escapedPath raw path) = path := by
  unfold escapedPath
  split_ifs
  · exact decode_of_unescape h
  · exact decode_of_unescape (unescape_escape (by decide) path)

theorem validEncoded_escapedPath {raw path : List UInt8} :
    validEncoded (escapedPath raw path) = true := by
  unfold escapedPath
  split_ifs with h
  · exact h
  · exact validEncoded_escape path

/-! ## The target that Go sends -/

/-- The path of a text is what it has before a fragment, up to a query. -/
theorem takeWhile_takeWhile_eq_pathPart (s : List UInt8) :
    (s.takeWhile (· ≠ hash)).takeWhile (· ≠ question) = pathPart s := by
  unfold pathPart
  rw [List.takeWhile_takeWhile]
  refine congrArg (List.takeWhile · s) (funext fun c => ?_)
  simp

/-- A target has the path as it is written, and a query if the URL has one. -/
theorem requestUri_spec {url t : List UInt8} (h : requestUri url = some t) :
    ∃ path query, t = escapedPath (pathPart url) path ++ query ∧
      unescape (pathPart url) = some path ∧
      ((pathPart url).length = url.length → query = []) ∧
      (query = [] ∨ ∃ more, query = question :: more) ∧ url.any isCtl = false := by
  unfold requestUri at h
  split_ifs at h with hctl
  obtain ⟨fragment, -, h⟩ := Option.bind_eq_some_iff.mp h
  obtain ⟨path, hpath, h⟩ := Option.bind_eq_some_iff.mp h
  obtain rfl := Option.some_inj.mp h
  rw [takeWhile_takeWhile_eq_pathPart] at hpath ⊢
  refine ⟨path, _, rfl, hpath, fun hlen => ?_, ?_, Bool.eq_false_iff.mpr hctl⟩
  · have hsplit := List.takeWhile_append_dropWhile (p := fun c => decide (c ≠ question))
      (l := url.takeWhile (· ≠ hash))
    rw [takeWhile_takeWhile_eq_pathPart] at hsplit
    have hlength := congrArg List.length hsplit
    have hle := (List.takeWhile_prefix (l := url) fun c => decide (c ≠ hash)).length_le
    rw [List.length_append] at hlength
    exact List.eq_nil_of_length_eq_zero (by omega)
  · cases hquery : (url.takeWhile (· ≠ hash)).dropWhile (· ≠ question) with
    | nil => exact .inl rfl
    | cons c more =>
      have hc := List.dropWhile_get_zero_not (fun c => decide (c ≠ question))
        (url.takeWhile (· ≠ hash)) (by rw [hquery]; simp)
      simp only [hquery, List.get_eq_getElem, List.getElem_cons_zero] at hc
      exact .inr ⟨more, by simpa using hc⟩

/-- A text that begins a path, before what it goes on with. -/
theorem pathPart_append {p : List UInt8} (hquestion : question ∉ p) (hhash : hash ∉ p)
    (s : List UInt8) : pathPart (p ++ s) = p ++ pathPart s := by
  refine List.takeWhile_append_of_pos fun c hc => decide_eq_true ⟨?_, ?_⟩
  · rintro rfl
    exact hquestion hc
  · rintro rfl
    exact hhash hc

/-- What is kept is not escaped before the rest. -/
theorem escape_append {p : List UInt8} (hp : ∀ c ∈ p, keepPath c = true) (s : List UInt8) :
    escape keepPath (p ++ s) = p ++ escape keepPath s := by
  unfold escape
  rw [List.flatMap_append, List.flatMap_congr fun c hc => if_pos (hp c hc), List.flatMap_singleton']

/-- What a path begins with is written as it stands, if nothing in it is escaped. -/
theorem escapedPath_append {p : List UInt8} (hp : ∀ c ∈ p, keepPath c = true)
    (raw path : List UInt8) : escapedPath (p ++ raw) (p ++ path) = p ++ escapedPath raw path := by
  have hvalid : validEncoded (p ++ raw) = validEncoded raw := by
    unfold validEncoded
    rw [List.all_append, List.all_eq_true.mpr fun c hc => validByte_of_keepPath (hp c hc),
      Bool.true_and]
  unfold escapedPath
  rw [hvalid, escape_append hp]
  split_ifs <;> rfl

theorem of_mem_pathPart {c : UInt8} {s : List UInt8} (h : c ∈ pathPart s) :
    c ≠ question ∧ c ≠ hash := by
  simpa using List.mem_takeWhile_imp h

/-- A text goes on to its end when nothing in it ends it. -/
theorem takeWhile_ne_of_not_mem {a : UInt8} {s : List UInt8} (h : a ∉ s) :
    s.takeWhile (· ≠ a) = s ∧ s.dropWhile (· ≠ a) = [] := by
  have hall : ∀ c ∈ s, decide (c ≠ a) = true := by
    intro c hc
    refine decide_eq_true ?_
    rintro rfl
    exact h hc
  exact ⟨List.takeWhile_eq_self_iff.mpr hall, List.dropWhile_eq_nil_iff.mpr hall⟩

/-- Without anything that ends a path, or an escape, the target is the path. -/
theorem requestUri_of_path {url : List UInt8} (hctl : url.any isCtl = false) (hsign : sign ∉ url)
    (hquestion : question ∉ url) (hhash : hash ∉ url) :
    requestUri url = some (escapedPath url url) := by
  obtain ⟨hrest, hdrop⟩ := takeWhile_ne_of_not_mem hhash
  obtain ⟨hraw, hquery⟩ := takeWhile_ne_of_not_mem hquestion
  unfold requestUri
  rw [if_neg (by rw [hctl]; simp)]
  simp only [hrest, hraw, hdrop, hquery, unescape_of_not_mem hsign]
  simp

/-! ## The path that Python reads -/

/-- The first word of a text goes on until white space comes. -/
theorem words_append {s : List UInt8} (hs : ∀ c ∈ s, isSpace c = false) (hne : s ≠ [])
    (t : List UInt8) : ∃ more, words (s ++ t) = (s ++ t.takeWhile fun c => !isSpace c) :: more := by
  have hword : ∀ c ∈ s ++ t.takeWhile (fun c => !isSpace c), isSpace c = false := by
    intro c hc
    rcases List.mem_append.mp hc with hc | hc
    · exact hs c hc
    · simpa using List.mem_takeWhile_imp hc
  have hkept : decide (s ++ t.takeWhile (fun c => !isSpace c) ≠ []) = true := by simp [hne]
  unfold words
  cases hdrop : t.dropWhile (fun c => !isSpace c) with
  | nil =>
    have hsplit := List.takeWhile_append_dropWhile (p := fun c => !isSpace c) (l := t)
    rw [hdrop, List.append_nil] at hsplit
    rw [hsplit] at hword hkept ⊢
    rw [List.splitOnP_eq_singleton hword, List.filter_cons, if_pos hkept]
    exact ⟨_, rfl⟩
  | cons c rest =>
    have hc : isSpace c = true := by
      have h := List.dropWhile_get_zero_not (fun c => !isSpace c) t (by rw [hdrop]; simp)
      simpa [hdrop] using h
    have hsplit := List.takeWhile_append_dropWhile (p := fun c => !isSpace c) (l := t)
    rw [hdrop] at hsplit
    conv => enter [1, more, 1, 2]; rw [← hsplit, ← List.append_assoc]
    rw [List.splitOnP_append_cons_of_forall_mem hword c hc, List.filter_cons, if_pos hkept]
    exact ⟨_, rfl⟩

/-- The path of a request line is the target up to white space. -/
theorem eq_of_requestPath {s t path : List UInt8} (hs : ∀ c ∈ s, isSpace c = false) (hne : s ≠ [])
    (h : requestPath (s ++ t) = some path) : path = s ++ t.takeWhile fun c => !isSpace c := by
  obtain ⟨more, hwords⟩ := words_append hs hne t
  unfold requestPath at h
  split_ifs at h
  rw [hwords] at h
  cases more with
  | nil => exact (Option.some_inj.mp h).symm
  | cons w more => cases h

theorem requestPath_eq {target : List UInt8} (hs : ∀ c ∈ target, isSpace c = false)
    (hne : target ≠ []) (hlen : target.length + 18 ≤ 65536) :
    requestPath target = some target := by
  have hlength : (bytes "DELETE ").length = 7 ∧ (bytes " HTTP/1.1\r\n").length = 11 := by decide
  unfold requestPath words
  rw [if_neg (by omega), List.splitOnP_eq_singleton hs,
    List.filter_cons_of_pos (by simpa using hne)]
  rfl

/-! ## The last part of a path -/

theorem not_mem_lastSegment (s : List UInt8) : slash ∉ lastSegment s := by
  intro hmem
  simpa using List.mem_rtakeWhile_imp hmem

/-- What follows the last slash. -/
theorem lastSegment_append (s : List UInt8) {t : List UInt8} (h : slash ∉ t) :
    lastSegment (s ++ slash :: t) = t := by
  have ht : ∀ c ∈ t.reverse, decide (c ≠ slash) = true := by
    intro c hc
    refine decide_eq_true ?_
    rintro rfl
    exact h (List.mem_reverse.mp hc)
  unfold lastSegment List.rtakeWhile
  rw [List.reverse_append, List.reverse_cons, List.append_assoc, List.takeWhile_append_of_pos ht,
    List.singleton_append, List.takeWhile_cons_of_neg (by simp), List.append_nil,
    List.reverse_reverse]

/-- The last part of a text that ends a path is no longer than the text. -/
theorem lastSegment_append_suffix (s t : List UInt8) : lastSegment (s ++ slash :: t) <:+ t := by
  by_cases hmem : slash ∈ t
  · obtain ⟨v, u, hrev, hv⟩ := List.eq_append_cons_of_mem (List.mem_reverse.mpr hmem)
    have ht : t = u.reverse ++ slash :: v.reverse := by
      rw [← List.reverse_reverse t, hrev]
      simp
    have hv : slash ∉ v.reverse := fun h => hv (List.mem_reverse.mp h)
    rw [ht, ← List.cons_append, ← List.append_assoc, lastSegment_append _ hv]
    exact ⟨u.reverse ++ [slash], by simp⟩
  · rw [lastSegment_append s hmem]

/-- The last part of what stands before a final slash ends a part of the text. -/
theorem lastSegment_trimSlash_append (s : List UInt8) {t : List UInt8} (hne : t ≠ []) :
    ∃ u, u <+: t ∧ lastSegment (trimSlash (s ++ slash :: t)) <:+ u := by
  unfold trimSlash
  split_ifs
  · refine ⟨t.dropLast, List.dropLast_prefix t, ?_⟩
    rw [List.dropLast_append_of_ne_nil (by simp), List.dropLast_cons_of_ne_nil hne]
    exact lastSegment_append_suffix s _
  · exact ⟨t, List.prefix_rfl, lastSegment_append_suffix s t⟩

/-- The last part of a text is one of its parts. -/
theorem lastSegment_mem_splitOn (s : List UInt8) : lastSegment s ∈ s.splitOn slash := by
  by_cases hmem : slash ∈ s
  · obtain ⟨v, u, hrev, hv⟩ := List.eq_append_cons_of_mem (List.mem_reverse.mpr hmem)
    have hs : s = u.reverse ++ slash :: v.reverse := by
      rw [← List.reverse_reverse s, hrev]
      simp
    have hv : slash ∉ v.reverse := fun h => hv (List.mem_reverse.mp h)
    rw [hs, lastSegment_append _ hv, List.splitOn_append_cons_self, List.splitOn_eq_singleton hv]
    simp
  · have hall : ∀ c ∈ s.reverse, decide (c ≠ slash) = true := by
      intro c hc
      refine decide_eq_true ?_
      rintro rfl
      exact hmem (List.mem_reverse.mp hc)
    unfold lastSegment List.rtakeWhile
    rw [List.takeWhile_eq_self_iff.mpr hall, List.reverse_reverse, List.splitOn_eq_singleton hmem]
    exact List.mem_singleton_self s

theorem lastSegment_trimSlash_mem (s : List UInt8) :
    lastSegment (trimSlash s) ∈ s.splitOn slash := by
  unfold trimSlash
  split_ifs with hlast
  · obtain ⟨t, rfl⟩ := List.getLast?_eq_some_iff.mp hlast
    rw [List.dropLast_concat, List.splitOn_append_cons_self]
    exact List.mem_append_left _ (lastSegment_mem_splitOn t)
  · exact lastSegment_mem_splitOn s

/-- There is nothing to trim when the text ends otherwise. -/
theorem lastSegment_trimSlash_of_not_mem (s : List UInt8) {t : List UInt8} (h : slash ∉ t)
    (hne : t ≠ []) : lastSegment (trimSlash (s ++ slash :: t)) = t := by
  have hlast : (s ++ slash :: t).getLast? ≠ some slash := by
    intro hlast
    have hmem := List.mem_of_getLast? (l := t) (a := slash) (by
      rw [List.getLast?_append, List.getLast?_cons] at hlast
      cases ht : t.getLast? with
      | none => exact absurd (List.getLast?_eq_none_iff.mp ht) hne
      | some c => simpa [ht] using hlast)
    exact h hmem
  unfold trimSlash
  rw [if_neg hlast]
  exact lastSegment_append s h

end ControlPlane.Url
