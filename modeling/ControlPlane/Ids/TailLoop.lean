import ControlPlane.Lib.JsonRoundTrip
import ControlPlane.Lib.Lines
import ControlPlane.Lib.Runs
import ControlPlane.Lib.Utf8
import Mathlib.Logic.Function.Basic

/-!
# Following the event file

`tail_loop` of `ids-api.py`, beside a file system that grows, cuts and replaces the file of the
events between any two steps of the loop. The loop counts characters and seeks to bytes, takes
whatever `readline` returns for a line, and knows a replaced file by the inode and by the size that
`os.stat` has found before it opens the file. `tailKept_of_clean` is what it does where none of
these matters, and `exists_lost` is a line that is written in two pieces.
-/

namespace ControlPlane.Ids

open JsonText Runs

variable {Obj : Type}

/-! ## One line -/

/-- What `f.readline()` takes from some bytes: a line ends with `\n`, `\r\n` or `\r`. -/
def takeLine : List UInt8 → List UInt8
  | [] => []
  | b :: rest =>
    if b = 10 then [10]
    else if b = 13 then if rest.head? = some 10 then [13, 10] else [13]
    else b :: takeLine rest

/-- The newlines that a text file gives, whatever the line ends are. -/
def translate : List Char → List Char
  | [] => []
  | '\r' :: '\n' :: rest => '\n' :: translate rest
  | '\r' :: rest => '\n' :: translate rest
  | c :: rest => c :: translate rest

/-- The line of some bytes, with `none` for a `UnicodeDecodeError`. -/
def decodeLine (bytes : List UInt8) : Option (List Char) :=
  if Utf8.Valid bytes then some (translate (Utf8.decodeIgnore bytes)) else none

/-- What the loop does with a line. -/
inductive LineOutcome (Obj : Type) where
  /-- Nothing, for a blank line, a text that is no JSON, or another event. -/
  | skip
  | alert (ev : PyVal Obj)
  | flow (ev : PyVal Obj)
  /-- `ev.get` is no attribute. -/
  | raised

/-- The body of the loop over the lines. -/
def handleLine (J : Interp Obj) (line : List Char) : LineOutcome Obj :=
  let line := strip (line.map ofChar)
  if line = [] then .skip
  else match J.loads line with
    | .error _ => .skip
    | .ok (.dict items) =>
      match getItem (u "event_type") items with
      | some (.str et) =>
        if et = u "alert" then .alert (.dict items)
        else if et = u "flow" then .flow (.dict items)
        else .skip
      | _ => .skip
    | .ok _ => .raised

/-- The alert of a line, when it is one. -/
def alertOf (J : Interp Obj) (bytes : List UInt8) : Option (PyVal Obj) :=
  match (decodeLine bytes).map (handleLine J) with
  | some (.alert ev) => some ev
  | _ => none

/-! ## The loop and the file system -/

/-- A file. -/
structure EveFile where
  ino : ℕ
  /-- Another number whenever the file is cut. -/
  serial : ℕ
  data : List UInt8

/-- What `os.stat` has found, and in which file. -/
structure Stat where
  ino : ℕ
  size : ℕ
  id : ℕ
  serial : ℕ

/-- The variable `f`; an open file is known by its number, and by its serial when it was opened. -/
inductive Handle where
  | none
  | closed
  | opened (id serial : ℕ)

/-- Where the loop is. -/
inductive TailPc where
  /-- Before `os.stat`. -/
  | top
  /-- Between `os.stat` and `open`. -/
  | opening (st : Stat)
  /-- Before `f.readline()`, with the next byte that it reads. -/
  | reading (off : ℕ)

/-- No poll is under way. -/
def TailPc.isTop : TailPc → Bool
  | .top => true
  | _ => false

theorem TailPc.isTop_iff {pc : TailPc} : pc.isTop = true ↔ pc = .top := by
  cases pc <;> simp [isTop]

/-- An alert that was added to the ring and broadcast, and the place where its text was read. -/
structure Added (Obj : Type) where
  serial : ℕ
  off : ℕ
  ev : PyVal Obj

/-- The files and the variables of the loop. -/
structure Tail (Obj : Type) where
  /-- The file that has the name, if there is one. -/
  path : Option ℕ
  file : ℕ → EveFile
  /-- How many files there have been. -/
  files : ℕ
  /-- How many serials there have been. -/
  serials : ℕ
  inode : Option ℕ
  pos : ℕ
  f : Handle
  pc : TailPc
  /-- How many bytes of the open file have been read. -/
  seen : ℕ
  /-- The alerts for `_alerts`, of which the ring has the last `RING_ALERTS`, and `_broadcast`. -/
  alerts : List (Added Obj)
  /-- The flows for `_flows`. -/
  flows : List (PyVal Obj)
  /-- The serials and the contents that the polls have found. -/
  polled : List (ℕ × List UInt8)

/-- The steps of the programs that write the file, and those of the loop. -/
inductive TailStep where
  | append (id : ℕ) (bytes : List UInt8)
  | truncate (id : ℕ) (size : ℕ)
  /-- The name goes to a new file. -/
  | rotate (ino : ℕ)
  | remove
  | stat
  | openFile
  | readline

namespace Tail

/-- There is no file yet. -/
def initial : Tail Obj where
  path := none
  file _ := { ino := 0, serial := 0, data := [] }
  files := 0
  serials := 0
  inode := none
  pos := 0
  f := .none
  pc := .top
  seen := 0
  alerts := []
  flows := []
  polled := []

/-- The open file has another inode. -/
def InoFree (s : Tail Obj) (ino : ℕ) : Prop :=
  match s.f with
  | .opened id _ => (s.file id).ino ≠ ino
  | _ => True

instance (s : Tail Obj) (ino : ℕ) : Decidable (s.InoFree ino) := by
  unfold InoFree
  split <;> infer_instance

/-- `os.stat`. -/
def statOf (s : Tail Obj) (id : ℕ) : Stat where
  ino := (s.file id).ino
  size := (s.file id).data.length
  id := id
  serial := (s.file id).serial

/-- The test before `open`. -/
def reopens (s : Tail Obj) (st : Stat) : Bool :=
  some st.ino != s.inode || (match s.f with | .none => true | _ => false) || st.size < s.pos

/-- The rest of `f.readline()` and the loop over the lines, for the line of some bytes. -/
def readLine (J : Interp Obj) (s : Tail Obj) (serial off : ℕ) (bytes : List UInt8) : Tail Obj :=
  match decodeLine bytes with
  | none => { s with pc := .top }
  | some line =>
    let s := { s with
      pos := s.pos + line.length
      seen := max s.seen (off + bytes.length)
      pc := .reading (off + bytes.length) }
    match handleLine J line with
    | .skip => s
    | .alert ev => { s with alerts := s.alerts ++ [⟨serial, off, ev⟩] }
    | .flow ev => { s with flows := s.flows ++ [ev] }
    | .raised => { s with pc := .top }

/-- One step, where it can be taken. -/
def step (J : Interp Obj) (s : Tail Obj) : TailStep → Option (Tail Obj)
  | .append id bytes =>
    let file : EveFile := { s.file id with data := (s.file id).data ++ bytes }
    if id < s.files then some { s with file := Function.update s.file id file } else none
  | .truncate id size =>
    let file : EveFile :=
      { s.file id with serial := s.serials, data := (s.file id).data.take size }
    if id < s.files ∧ size < (s.file id).data.length then
      some { s with file := Function.update s.file id file, serials := s.serials + 1 }
    else none
  | .rotate ino =>
    let file : EveFile := { ino := ino, serial := s.serials, data := [] }
    if s.InoFree ino then
      some { s with
        path := some s.files
        file := Function.update s.file s.files file
        files := s.files + 1
        serials := s.serials + 1 }
    else none
  | .remove => some { s with path := none }
  | .stat =>
    match s.pc, s.path with
    | .top, none => some s
    | .top, some id =>
      let st := s.statOf id
      let s := { s with polled := s.polled ++ [((s.file id).serial, (s.file id).data)] }
      if s.reopens st then some { s with pc := .opening st }
      else match s.f with
        | .opened _ _ => some { s with pc := .reading s.pos }
        | _ => some s
    | _, _ => none
  | .openFile =>
    match s.pc with
    | .opening st =>
      let f : Handle := match s.f with | .opened _ _ => .closed | f => f
      match s.path with
      | none => some { s with f := f, pc := .top }
      | some id => some { s with
          f := .opened id (s.file id).serial
          inode := some st.ino
          pos := 0
          seen := 0
          pc := .reading 0 }
    | _ => none
  | .readline =>
    match s.pc, s.f with
    | .reading off, .opened id serial =>
      match (s.file id).data.drop off with
      | [] => some { s with pc := .top }
      | b :: rest => some (readLine J s serial off (takeLine (b :: rest)))
    | _, _ => none

/-- When a poll is over, each complete alert line that this poll or an earlier one has found in the
file was added once. -/
def TailKept (J : Interp Obj) (s : Tail Obj) : Prop :=
  s.pc = .top →
  ∀ found ∈ s.polled, ∀ line ∈ Lines.complete 10 found.2, ∀ ev, alertOf J line.2 = some ev →
    (s.alerts.filter fun a => a.serial = found.1 ∧ a.off = line.1) = [⟨found.1, line.1, ev⟩]

/-- What is left of the file to be read is nothing, or begins with a line that is there as a whole,
has no `\r` but before its `\n`, is UTF-8 and no JSON value but an object; and when it has been read
before, it is no alert. -/
def CleanRest (J : Interp Obj) (again : Prop) (rest : List UInt8) : Prop :=
  rest = [] ∨ ∃ l more, rest = l ++ 10 :: more ∧ 10 ∉ l ∧ 13 ∉ l.dropLast ∧
    (∃ line, decodeLine (l ++ [10]) = some line ∧ handleLine J line ≠ .raised) ∧
    (again → alertOf J (l ++ [10]) = none)

/-- No alert is left in a file that is cut; a poll that goes on with the open file finds that it was
not cut since; the file that is opened is the one that `os.stat` has found; and each line is read
from that file, with what is left of it as above. -/
def Clean (J : Interp Obj) (s : Tail Obj) : TailStep → Prop
  | .truncate id size =>
    ∀ line ∈ Lines.complete 10 ((s.file id).data.take size), alertOf J line.2 = none
  | .stat =>
    ∀ id, s.path = some id → s.reopens (s.statOf id) = false →
      ∀ id' serial, s.f = .opened id' serial → (s.file id').serial = serial
  | .openFile =>
    ∀ st, s.pc = .opening st → s.path = some st.id ∧ (s.file st.id).serial = st.serial
  | .readline =>
    ∀ off id serial, s.pc = .reading off → s.f = .opened id serial →
      (s.file id).serial = serial ∧
        CleanRest J (off < s.seen) ((s.file id).data.drop off)
  | _ => True

/-- The alerts of the complete lines of a file. -/
def alertsIn (J : Interp Obj) (serial : ℕ) (data : List UInt8) : List (Added Obj) :=
  (Lines.complete 10 data).filterMap fun line =>
    (alertOf J line.2).map fun ev => ⟨serial, line.1, ev⟩

/-- The complete lines of what a poll has found have been read. -/
def Covered (read : ℕ → List UInt8) (found : ℕ × List UInt8) : Prop :=
  Lines.complete 10 found.2 <+: Lines.complete 10 (read found.1)

/-- The poll that has found it is still at it. -/
def Pending (s : Tail Obj) (found : ℕ × List UInt8) : Prop :=
  match s.pc with
  | .top => False
  | .opening st => found.1 = st.serial ∧ st.id < s.files ∧ found.1 < s.serials ∧
      ((s.file st.id).serial = found.1 → found.2 <+: (s.file st.id).data)
  | .reading _ => ∃ id, s.f = .opened id found.1 ∧
      ((s.file id).serial = found.1 → found.2 <+: (s.file id).data)

/-- The file system gives each file its number and each state of a file its serial. -/
structure WellFormed (s : Tail Obj) : Prop where
  path_lt : ∀ id, s.path = some id → id < s.files
  serial_lt : ∀ id, id < s.files → (s.file id).serial < s.serials
  serial_inj : ∀ id id', id < s.files → id' < s.files →
    (s.file id).serial = (s.file id').serial → id = id'

/-- What every clean run has, with what was read of the file of each serial. -/
structure Inv (J : Interp Obj) (read : ℕ → List UInt8) (s : Tail Obj) : Prop where
  wellFormed : s.WellFormed
  /-- Whole lines have been read. -/
  atLine : ∀ k, Lines.AtLine 10 (read k)
  /-- The alerts of these lines were added, and no others. -/
  alerts : ∀ k, (s.alerts.filter fun a => a.serial = k) = alertsIn J k (read k)
  fresh : ∀ k, s.serials ≤ k → read k = []
  notClosed : s.f ≠ .closed
  /-- The open file has the inode, which no other file has that could take its name. -/
  opened : ∀ id serial, s.f = .opened id serial → id < s.files ∧ serial < s.serials ∧
    s.inode = some (s.file id).ino ∧
    ∀ id', s.path = some id' → (s.file id').ino = (s.file id).ino → id' = id
  /-- The position is at or before the end of what was read of the open file. -/
  read_eq : ∀ id serial, s.f = .opened id serial → (s.file id).serial = serial →
    read serial = (s.file id).data.take s.seen ∧ s.pos ≤ s.seen ∧
      s.seen ≤ (s.file id).data.length
  /-- The file that has the name was read as the open file, if at all. -/
  only : ∀ id, s.path = some id → read (s.file id).serial ≠ [] →
    s.f = .opened id (s.file id).serial
  opening : ∀ st, s.pc = .opening st → read st.serial = [] ∧ st.id < s.files ∧
    st.ino = (s.file st.id).ino
  reading : ∀ off, s.pc = .reading off → ∃ id serial, s.f = .opened id serial ∧
    ((s.file id).serial = serial → s.pos ≤ off ∧ off ≤ s.seen)
  polled : ∀ found ∈ s.polled, Covered read found ∨ s.Pending found

variable {J : Interp Obj} {read : ℕ → List UInt8} {s s' : Tail Obj}

theorem Inv.initial : Inv J (fun _ => []) (initial : Tail Obj) where
  wellFormed := by
    constructor
    · intro id h
      exact absurd h (by simp [Tail.initial])
    · intro id h
      exact absurd h (by simp [Tail.initial])
    · intro id id' h
      exact absurd h (by simp [Tail.initial])
  atLine _ := Lines.atLine_nil
  alerts _ := rfl
  fresh _ _ := rfl
  notClosed := by simp [Tail.initial]
  opened id serial h := by simp [Tail.initial] at h
  read_eq id serial h := by simp [Tail.initial] at h
  only id h := by simp [Tail.initial] at h
  opening st h := by simp [Tail.initial] at h
  reading off h := by simp [Tail.initial] at h
  polled found h := by simp [Tail.initial] at h

/-- When no poll is under way, what the polls have found was added. -/
theorem Inv.tailKept (h : Inv J read s) : s.TailKept J := by
  intro htop found hfound line hline ev hev
  have hcovered : Covered read found := by
    refine (h.polled found hfound).resolve_right fun hpending => ?_
    simp [Pending, htop] at hpending
  have hmem : line ∈ Lines.complete 10 (read found.1) := hcovered.subset hline
  calc (s.alerts.filter fun a => a.serial = found.1 ∧ a.off = line.1)
      = (s.alerts.filter fun a => a.serial = found.1).filter fun a => a.off = line.1 := by
        rw [List.filter_filter]
        simp [Bool.and_comm]
    _ = (alertsIn J found.1 (read found.1)).filter fun a => a.off = line.1 := by
        rw [h.alerts]
    _ = [⟨found.1, line.1, ev⟩] := by
        apply Lines.filter_filterMap_of_pairwise (Lines.pairwise_complete _) hmem
        · simp [hev]
        · intro other a ha
          obtain ⟨_, -, rfl⟩ := Option.map_eq_some_iff.mp ha
          rfl

/-! ## The file system -/

/-- What the other programs do: a file grows or gets a new serial, and the name may go to a new
file. -/
structure WorldStep (s s' : Tail Obj) : Prop where
  inode_eq : s'.inode = s.inode
  pos_eq : s'.pos = s.pos
  f_eq : s'.f = s.f
  pc_eq : s'.pc = s.pc
  seen_eq : s'.seen = s.seen
  alerts_eq : s'.alerts = s.alerts
  polled_eq : s'.polled = s.polled
  wellFormed : s'.WellFormed
  files_le : s.files ≤ s'.files
  serials_le : s.serials ≤ s'.serials
  file : ∀ id < s.files, (s'.file id).ino = (s.file id).ino ∧
    ((s'.file id).serial = (s.file id).serial ∧ (s.file id).data <+: (s'.file id).data ∨
      s.serials ≤ (s'.file id).serial)
  path : ∀ id, s'.path = some id → s.path = some id ∨
    s.files ≤ id ∧ s.serials ≤ (s'.file id).serial ∧ s.InoFree (s'.file id).ino

/-- A file that has a serial of before has grown. -/
theorem WorldStep.data_prefix_of (hw : WorldStep s s') {id serial : ℕ} (hid : id < s.files)
    (hserial : serial < s.serials) (h : (s'.file id).serial = serial) :
    (s.file id).serial = serial ∧ (s.file id).data <+: (s'.file id).data := by
  rcases (hw.file id hid).2 with ⟨hsame, hdata⟩ | hnew
  · exact ⟨hsame.symm.trans h, hdata⟩
  · omega

/-- The other programs keep the invariant. -/
theorem Inv.world (h : Inv J read s) (hw : WorldStep s s') : Inv J read s' := by
  have hf := hw.f_eq
  have hfiles := hw.files_le
  have hserials := hw.serials_le
  constructor
  · exact hw.wellFormed
  · exact h.atLine
  · rw [hw.alerts_eq]
    exact h.alerts
  · intro k hk
    exact h.fresh k (by omega)
  · rw [hf]
    exact h.notClosed
  · intro id serial hopened
    rw [hf] at hopened
    obtain ⟨hid, hserial, hino, hname⟩ := h.opened id serial hopened
    refine ⟨by omega, by omega, ?_, ?_⟩
    · rw [hw.inode_eq, (hw.file id hid).1]
      exact hino
    · intro id' hpath hsame
      rw [(hw.file id hid).1] at hsame
      rcases hw.path id' hpath with hold | ⟨-, -, hfree⟩
      · rw [(hw.file id' (h.wellFormed.path_lt id' hold)).1] at hsame
        exact hname id' hold hsame
      · -- a new file does not get the inode of the open one
        simp only [InoFree, hopened] at hfree
        exact absurd hsame.symm hfree
  · intro id serial hopened hserial
    rw [hf] at hopened
    obtain ⟨hid, hlt, -, -⟩ := h.opened id serial hopened
    obtain ⟨hold, hdata⟩ := hw.data_prefix_of hid hlt hserial
    obtain ⟨hread, hle, hlen⟩ := h.read_eq id serial hopened hold
    rw [hw.pos_eq, hw.seen_eq]
    refine ⟨?_, hle, hlen.trans hdata.length_le⟩
    obtain ⟨more, hmore⟩ := hdata
    rw [← hmore, List.take_append_of_le_length hlen]
    exact hread
  · intro id hpath hread
    have hlt : (s'.file id).serial < s.serials := by
      by_contra hge
      exact hread (h.fresh _ (by omega))
    rcases hw.path id hpath with hold | ⟨-, hnew, -⟩
    · obtain ⟨hsame, -⟩ := hw.data_prefix_of (h.wellFormed.path_lt id hold) hlt rfl
      rw [hf, ← hsame]
      exact h.only id hold (by rw [hsame]; exact hread)
    · omega
  · intro st hst
    rw [hw.pc_eq] at hst
    obtain ⟨hread, hid, hino⟩ := h.opening st hst
    exact ⟨hread, by omega, hino.trans (hw.file st.id hid).1.symm⟩
  · intro off hoff
    rw [hw.pc_eq] at hoff
    obtain ⟨id, serial, hopened, hle⟩ := h.reading off hoff
    obtain ⟨hid, hlt, -, -⟩ := h.opened id serial hopened
    refine ⟨id, serial, hf.trans hopened, fun hserial => ?_⟩
    rw [hw.pos_eq, hw.seen_eq]
    exact hle (hw.data_prefix_of hid hlt hserial).1
  · intro found hfound
    rw [hw.polled_eq] at hfound
    refine (h.polled found hfound).imp_right fun hpending => ?_
    have hgrown {id : ℕ} (hid : id < s.files) (hlt : found.1 < s.serials)
        (hdata : (s.file id).serial = found.1 → found.2 <+: (s.file id).data)
        (hserial : (s'.file id).serial = found.1) : found.2 <+: (s'.file id).data := by
      obtain ⟨hold, hmore⟩ := hw.data_prefix_of hid hlt hserial
      exact (hdata hold).trans hmore
    unfold Pending at hpending ⊢
    rw [hw.pc_eq]
    cases hpc : s.pc with
    | top =>
      rw [hpc] at hpending
      exact hpending
    | opening st =>
      rw [hpc] at hpending
      obtain ⟨hserial, hid, hlt, hdata⟩ := hpending
      exact ⟨hserial, by omega, by omega, hgrown hid hlt hdata⟩
    | reading off =>
      rw [hpc] at hpending
      obtain ⟨id, hopened, hdata⟩ := hpending
      obtain ⟨hid, hlt, -, -⟩ := h.opened id found.1 hopened
      exact ⟨id, hf.trans hopened, hgrown hid hlt hdata⟩

/-- A file that is there gets other data, and its serial or a new one. -/
theorem WellFormed.setFile (h : s.WellFormed) {id serials : ℕ} {file : EveFile}
    (hid : id < s.files) (hino : file.ino = (s.file id).ino)
    (hfile : file.serial = (s.file id).serial ∧ (s.file id).data <+: file.data ∧
        serials = s.serials ∨
      file.serial = s.serials ∧ serials = s.serials + 1) :
    WorldStep s { s with file := Function.update s.file id file, serials := serials } where
  inode_eq := rfl
  pos_eq := rfl
  f_eq := rfl
  pc_eq := rfl
  seen_eq := rfl
  alerts_eq := rfl
  polled_eq := rfl
  files_le := Nat.le_refl _
  serials_le := by
    dsimp only
    omega
  wellFormed := by
    have hlt := h.serial_lt id hid
    have hne : ∀ i < s.files, i ≠ id → (s.file i).serial ≠ file.serial := by
      intro i hi hine heq
      have hlti := h.serial_lt i hi
      rcases hfile with ⟨hsame, -, -⟩ | ⟨hnew, -⟩
      · exact hine (h.serial_inj i id hi hid (heq.trans hsame))
      · omega
    constructor
    · exact h.path_lt
    · intro i hi
      dsimp only at hi ⊢
      rcases eq_or_ne i id with rfl | hine
      · rw [Function.update_self]
        omega
      · rw [Function.update_of_ne hine]
        have hlti := h.serial_lt i hi
        omega
    · intro i j hi hj hij
      dsimp only at hi hj hij
      rcases eq_or_ne i id with rfl | hine
      · rcases eq_or_ne j i with rfl | hjne
        · rfl
        · rw [Function.update_self, Function.update_of_ne hjne] at hij
          exact absurd hij.symm (hne j hj hjne)
      · rw [Function.update_of_ne hine] at hij
        rcases eq_or_ne j id with rfl | hjne
        · rw [Function.update_self] at hij
          exact absurd hij (hne i hi hine)
        · rw [Function.update_of_ne hjne] at hij
          exact h.serial_inj i j hi hj hij
  file := by
    intro i hi
    dsimp only
    rcases eq_or_ne i id with rfl | hine
    · rw [Function.update_self]
      refine ⟨hino, ?_⟩
      rcases hfile with ⟨hsame, hdata, -⟩ | ⟨hnew, -⟩
      · exact .inl ⟨hsame, hdata⟩
      · exact .inr hnew.ge
    · rw [Function.update_of_ne hine]
      exact ⟨rfl, .inl ⟨rfl, List.prefix_refl _⟩⟩
  path id' hid' := .inl hid'

theorem WellFormed.append (h : s.WellFormed) {id : ℕ} {bytes : List UInt8}
    (hstep : step J s (.append id bytes) = some s') : WorldStep s s' := by
  simp only [step] at hstep
  split at hstep
  · rename_i hid
    obtain rfl := Option.some.inj hstep
    exact h.setFile hid rfl (.inl ⟨rfl, List.prefix_append _ _, rfl⟩)
  · exact absurd hstep (by simp)

theorem WellFormed.truncate (h : s.WellFormed) {id size : ℕ}
    (hstep : step J s (.truncate id size) = some s') : WorldStep s s' := by
  simp only [step] at hstep
  split at hstep
  · rename_i hid
    obtain rfl := Option.some.inj hstep
    exact h.setFile hid.1 rfl (.inr ⟨rfl, rfl⟩)
  · exact absurd hstep (by simp)

theorem WellFormed.remove (h : s.WellFormed) (hstep : step J s .remove = some s') :
    WorldStep s s' := by
  obtain rfl := Option.some.inj hstep
  constructor <;> try rfl
  · exact ⟨by simp, h.serial_lt, h.serial_inj⟩
  · exact fun i _ => ⟨rfl, .inl ⟨rfl, List.prefix_refl _⟩⟩
  · simp

theorem WellFormed.rotate (h : s.WellFormed) {ino : ℕ}
    (hstep : step J s (.rotate ino) = some s') : WorldStep s s' := by
  simp only [step] at hstep
  split at hstep
  · rename_i hfree
    obtain rfl := Option.some.inj hstep
    have hold : ∀ i < s.files, i ≠ s.files := fun i hi => by omega
    constructor <;> try rfl
    · constructor
      · intro id hid
        dsimp only at hid ⊢
        obtain rfl := Option.some.inj hid
        omega
      · intro i hi
        dsimp only at hi ⊢
        rcases eq_or_ne i s.files with rfl | hine
        · rw [Function.update_self]
          exact Nat.lt_succ_self _
        · rw [Function.update_of_ne hine]
          have hlt := h.serial_lt i (by omega)
          omega
      · intro i j hi hj hij
        dsimp only at hi hj hij
        rcases eq_or_ne i s.files with rfl | hine
        · rcases eq_or_ne j s.files with rfl | hjne
          · rfl
          · rw [Function.update_self, Function.update_of_ne hjne] at hij
            have hlt := h.serial_lt j (by omega)
            dsimp only at hij
            omega
        · rw [Function.update_of_ne hine] at hij
          rcases eq_or_ne j s.files with rfl | hjne
          · rw [Function.update_self] at hij
            have hlt := h.serial_lt i (by omega)
            dsimp only at hij
            omega
          · rw [Function.update_of_ne hjne] at hij
            exact h.serial_inj i j (by omega) (by omega) hij
    · exact Nat.le_succ _
    · exact Nat.le_succ _
    · intro i hi
      dsimp only
      rw [Function.update_of_ne (hold i hi)]
      exact ⟨rfl, .inl ⟨rfl, List.prefix_refl _⟩⟩
    · intro id hid
      dsimp only at hid ⊢
      obtain rfl := Option.some.inj hid
      rw [Function.update_self]
      exact .inr ⟨Nat.le_refl _, Nat.le_refl _, hfree⟩
  · exact absurd hstep (by simp)

/-! ## The loop -/

theorem reopens_eq_false {st : Stat} (h : s.reopens st = false) :
    s.inode = some st.ino ∧ s.f ≠ .none ∧ s.pos ≤ st.size := by
  unfold reopens at h
  simp only [Bool.or_eq_false_iff, bne_eq_false_iff_eq, decide_eq_false_iff_not, not_lt] at h
  obtain ⟨⟨hino, hf⟩, hsize⟩ := h
  refine ⟨hino.symm, fun hnone => ?_, hsize⟩
  rw [hnone] at hf
  exact absurd hf (by simp)

/-- The file that has the name is opened again only when nothing was read of it. -/
theorem Inv.read_eq_nil (h : Inv J read s) {id : ℕ} (hpath : s.path = some id)
    (hreopens : s.reopens (s.statOf id) = true) : read (s.file id).serial = [] := by
  by_contra hread
  have hopened := h.only id hpath hread
  obtain ⟨-, -, hinode, -⟩ := h.opened id _ hopened
  obtain ⟨-, hpos, hseen⟩ := h.read_eq id _ hopened rfl
  have hsize : ¬ (s.file id).data.length < s.pos := by omega
  simp [reopens, statOf, hinode, hopened, hsize] at hreopens

/-- What the earlier polls have found is covered, when no poll is under way. -/
theorem Inv.covered (h : Inv J read s) (htop : s.pc = .top) :
    ∀ found ∈ s.polled, Covered read found := by
  intro found hfound
  refine (h.polled found hfound).resolve_right fun hpending => ?_
  simp [Pending, htop] at hpending

/-- A poll finds no file, or is about to open it, or goes on with the open file. -/
theorem step_stat (h : step J s .stat = some s') :
    s.pc = .top ∧ (s' = s ∨ ∃ id, s.path = some id ∧
      (s.reopens (s.statOf id) = true ∧
          s' = { s with
            polled := s.polled ++ [((s.file id).serial, (s.file id).data)]
            pc := .opening (s.statOf id) } ∨
        s.reopens (s.statOf id) = false ∧ ∀ id' serial, s.f = .opened id' serial →
          s' = { s with
            polled := s.polled ++ [((s.file id).serial, (s.file id).data)]
            pc := .reading s.pos })) := by
  rcases s with ⟨path, file, files, serials, inode, pos, f, pc, seen, alerts, flows, polled⟩
  cases pc with
  | opening st => simp [step] at h
  | reading off => simp [step] at h
  | top =>
    refine ⟨rfl, ?_⟩
    cases path with
    | none => exact .inl (Option.some.inj h).symm
    | some id =>
      refine .inr ⟨id, rfl, ?_⟩
      simp only [step] at h
      split at h
      · rename_i hreopens
        exact .inl ⟨hreopens, (Option.some.inj h).symm⟩
      · rename_i hreopens
        refine .inr ⟨Bool.eq_false_iff.mpr hreopens, ?_⟩
        rintro id' serial rfl
        exact (Option.some.inj h).symm

theorem step_openFile {id : ℕ} (h : step J s .openFile = some s') (hpath : s.path = some id) :
    ∃ st, s.pc = .opening st ∧
      s' = { s with
        f := .opened id (s.file id).serial
        inode := some st.ino
        pos := 0
        seen := 0
        pc := .reading 0 } := by
  rcases s with ⟨path, file, files, serials, inode, pos, f, pc, seen, alerts, flows, polled⟩
  obtain rfl := hpath
  cases pc with
  | top => simp [step] at h
  | reading off => simp [step] at h
  | opening st => exact ⟨st, rfl, (Option.some.inj h).symm⟩

theorem Inv.stat (h : Inv J read s) (hclean : Clean J s .stat)
    (hstep : step J s .stat = some s') : Inv J read s' := by
  obtain ⟨htop, rfl | ⟨id, hpath, hcase⟩⟩ := step_stat hstep
  · exact h
  have hid := h.wellFormed.path_lt id hpath
  have hpolled {p : TailPc} (hpending : Pending { s with
        polled := s.polled ++ [((s.file id).serial, (s.file id).data)], pc := p }
        ((s.file id).serial, (s.file id).data)) :
      ∀ found ∈ s.polled ++ [((s.file id).serial, (s.file id).data)],
        Covered read found ∨ Pending { s with
          polled := s.polled ++ [((s.file id).serial, (s.file id).data)], pc := p } found := by
    intro found hfound
    rcases List.mem_append.mp hfound with hold | hnew
    · exact .inl (h.covered htop found hold)
    · obtain rfl := List.mem_singleton.mp hnew
      exact .inr hpending
  have hwell := h.wellFormed
  rcases hcase with ⟨hreopens, rfl⟩ | ⟨hreopens, hgoes⟩
  · constructor
    · exact ⟨hwell.path_lt, hwell.serial_lt, hwell.serial_inj⟩
    · exact h.atLine
    · exact h.alerts
    · exact h.fresh
    · exact h.notClosed
    · exact h.opened
    · exact h.read_eq
    · exact h.only
    · intro st hst
      obtain rfl := TailPc.opening.inj hst
      exact ⟨h.read_eq_nil hpath hreopens, hid, rfl⟩
    · simp
    · exact hpolled ⟨rfl, hid, hwell.serial_lt id hid, fun _ => List.prefix_refl _⟩
  · obtain ⟨hinode, hnone, -⟩ := reopens_eq_false hreopens
    cases hf : s.f with
    | none => exact absurd hf hnone
    | closed => exact absurd hf h.notClosed
    | opened id' serial =>
      obtain rfl := hgoes id' serial hf
      -- the file that has the name is the open one, since it has the inode
      have hserial := hclean id hpath hreopens id' serial hf
      obtain ⟨-, -, hino, hname⟩ := h.opened id' serial hf
      have hsame : (s.file id).ino = (s.file id').ino :=
        Option.some.inj (hinode.symm.trans hino)
      obtain rfl := hname id hpath hsame
      obtain ⟨-, hpos, -⟩ := h.read_eq id serial hf hserial
      constructor
      · exact ⟨hwell.path_lt, hwell.serial_lt, hwell.serial_inj⟩
      · exact h.atLine
      · exact h.alerts
      · exact h.fresh
      · exact h.notClosed
      · exact h.opened
      · exact h.read_eq
      · exact h.only
      · simp
      · intro off hoff
        obtain rfl := TailPc.reading.inj hoff
        exact ⟨id, serial, hf, fun _ => ⟨Nat.le_refl _, hpos⟩⟩
      · exact hpolled ⟨id, hserial ▸ hf, fun _ => List.prefix_refl _⟩

theorem Inv.openFile (h : Inv J read s) (hclean : Clean J s .openFile)
    (hstep : step J s .openFile = some s') : Inv J read s' := by
  have hwell := h.wellFormed
  obtain ⟨st, hpc⟩ : ∃ st, s.pc = .opening st := by
    cases hpc : s.pc with
    | top => simp [step, hpc] at hstep
    | reading off => simp [step, hpc] at hstep
    | opening st => exact ⟨st, rfl⟩
  obtain ⟨hpath, hserial⟩ := hclean st hpc
  obtain ⟨hread, hid, hino⟩ := h.opening st hpc
  obtain ⟨st', hpc', rfl⟩ := step_openFile hstep hpath
  obtain rfl : st = st' := TailPc.opening.inj (hpc.symm.trans hpc')
  constructor
  · exact ⟨hwell.path_lt, hwell.serial_lt, hwell.serial_inj⟩
  · exact h.atLine
  · exact h.alerts
  · exact h.fresh
  · simp
  · intro id serial hopened
    obtain ⟨rfl, rfl⟩ := Handle.opened.inj hopened
    refine ⟨hid, hwell.serial_lt _ hid, congrArg some hino, fun id' hid' _ => ?_⟩
    exact Option.some.inj (hid'.symm.trans hpath)
  · intro id serial hopened _
    obtain ⟨rfl, rfl⟩ := Handle.opened.inj hopened
    dsimp only
    rw [hserial, hread]
    exact ⟨rfl, Nat.le_refl _, Nat.zero_le _⟩
  · intro id hid' _
    obtain rfl : st.id = id := Option.some.inj (hpath.symm.trans hid')
    rfl
  · simp
  · intro off hoff
    obtain rfl := TailPc.reading.inj hoff
    exact ⟨_, _, rfl, fun _ => ⟨Nat.le_refl _, Nat.le_refl _⟩⟩
  · intro found hfound
    refine (h.polled found hfound).imp_right fun hpending => ?_
    simp only [Pending, hpc] at hpending
    obtain ⟨hfserial, -, -, hdata⟩ := hpending
    exact ⟨st.id, by rw [hfserial, hserial], hdata⟩

/-- A whole line is taken as it is. -/
theorem takeLine_eq {l : List UInt8} (more : List UInt8) (hlf : 10 ∉ l) (hcr : 13 ∉ l.dropLast) :
    takeLine (l ++ 10 :: more) = l ++ [10] := by
  induction l with
  | nil => rfl
  | cons b l ih =>
    have hb : b ≠ 10 := fun e => hlf (by simp [e])
    have hl : 10 ∉ l := fun hmem => hlf (List.mem_cons_of_mem _ hmem)
    rw [List.cons_append, takeLine, if_neg hb]
    cases l with
    | nil =>
      split
      · rename_i hb13
        simp [hb13]
      · rfl
    | cons c l =>
      rw [List.dropLast_cons_cons] at hcr
      have hb13 : b ≠ 13 := fun e => hcr (by simp [e])
      rw [if_neg hb13, ih hl fun hmem => hcr (List.mem_cons_of_mem _ hmem)]
      rfl

theorem length_translate_le (s : List Char) : (translate s).length ≤ s.length := by
  fun_induction translate s with
  | case1 => exact Nat.le_refl _
  | case2 rest ih =>
    simp only [List.length_cons]
    omega
  | case3 rest _ ih =>
    simp only [List.length_cons]
    omega
  | case4 c rest _ _ ih =>
    simp only [List.length_cons]
    omega

/-- A line has at most as many characters as bytes. -/
theorem length_of_decodeLine {bytes : List UInt8} {line : List Char}
    (h : decodeLine bytes = some line) : line.length ≤ bytes.length := by
  unfold decodeLine at h
  split at h
  · rename_i hvalid
    obtain rfl := Option.some.inj h
    have htext := Utf8.length_le_length_encode (Utf8.decodeIgnore bytes)
    rw [hvalid.encode_decodeIgnore] at htext
    exact (length_translate_le _).trans htext
  · exact absurd h (by simp)

/-- A line that does not make the loop raise. -/
theorem readLine_eq (serial off : ℕ) {bytes : List UInt8} {line : List Char}
    (hline : decodeLine bytes = some line) (hraised : handleLine J line ≠ .raised) :
    ∃ flows, readLine J s serial off bytes = { s with
      pos := s.pos + line.length
      seen := max s.seen (off + bytes.length)
      pc := .reading (off + bytes.length)
      alerts := s.alerts ++ (alertOf J bytes).toList.map fun ev => ⟨serial, off, ev⟩
      flows := flows } := by
  unfold readLine alertOf
  rw [hline]
  cases hout : handleLine J line with
  | skip => exact ⟨s.flows, by simp [hout]⟩
  | alert ev => exact ⟨s.flows, by simp [hout]⟩
  | flow ev => exact ⟨s.flows ++ [ev], by simp [hout]⟩
  | raised => exact absurd hout hraised

theorem pc_readLine {serial off : ℕ} {bytes : List UInt8} {line : List Char}
    (hline : decodeLine bytes = some line) (hraised : handleLine J line ≠ .raised) :
    (readLine J s serial off bytes).pc = .reading (off + bytes.length) := by
  obtain ⟨flows, hafter⟩ := readLine_eq (s := s) serial off hline hraised
  rw [hafter]

theorem f_readLine (serial off : ℕ) (bytes : List UInt8) :
    (readLine J s serial off bytes).f = s.f := by
  unfold readLine
  split
  · rfl
  · dsimp only
    split <;> rfl

theorem file_readLine (serial off : ℕ) (bytes : List UInt8) :
    (readLine J s serial off bytes).file = s.file := by
  unfold readLine
  split
  · rfl
  · dsimp only
    split <;> rfl

/-- The loop has read on in the open file, up to the end of a line. -/
theorem Inv.advance (h : Inv J read s) {id serial : ℕ} (hf : s.f = .opened id serial)
    (hserial : (s.file id).serial = serial) {off pos seen off' : ℕ} (hpc : s.pc = .reading off)
    {alerts : List (Added Obj)} {flows : List (PyVal Obj)} (hpos : pos ≤ off') (hoff : off' ≤ seen)
    (hseen : s.seen ≤ seen) (hlen : seen ≤ (s.file id).data.length)
    (hline : Lines.AtLine 10 ((s.file id).data.take seen))
    (hother : ∀ k, k ≠ serial →
      (alerts.filter fun a => a.serial = k) = s.alerts.filter fun a => a.serial = k)
    (halerts : (alerts.filter fun a => a.serial = serial) =
      alertsIn J serial ((s.file id).data.take seen)) :
    Inv J (Function.update read serial ((s.file id).data.take seen)) { s with
      pos := pos, seen := seen, pc := .reading off', alerts := alerts, flows := flows } := by
  have hwell := h.wellFormed
  obtain ⟨hid, hlt, -, -⟩ := h.opened id serial hf
  obtain ⟨hread, -, -⟩ := h.read_eq id serial hf hserial
  have hgrown : ∀ k, read k <+: Function.update read serial ((s.file id).data.take seen) k := by
    intro k
    rcases eq_or_ne k serial with rfl | hk
    · rw [Function.update_self, hread]
      exact List.take_prefix_take_left hseen
    · rw [Function.update_of_ne hk]
  constructor
  · exact ⟨hwell.path_lt, hwell.serial_lt, hwell.serial_inj⟩
  · intro k
    rcases eq_or_ne k serial with rfl | hk
    · rw [Function.update_self]
      exact hline
    · rw [Function.update_of_ne hk]
      exact h.atLine k
  · intro k
    dsimp only
    rcases eq_or_ne k serial with rfl | hk
    · rw [Function.update_self]
      exact halerts
    · rw [Function.update_of_ne hk, hother k hk]
      exact h.alerts k
  · intro k hk
    dsimp only at hk
    rw [Function.update_of_ne (by omega)]
    exact h.fresh k hk
  · exact h.notClosed
  · exact h.opened
  · intro id' serial' hf' _
    obtain ⟨rfl, rfl⟩ := Handle.opened.inj (hf.symm.trans hf')
    rw [Function.update_self]
    exact ⟨rfl, hpos.trans hoff, hlen⟩
  · intro id' hpath hne
    dsimp only at hpath hne ⊢
    rcases eq_or_ne (s.file id').serial serial with hsame | hk
    · obtain rfl := hwell.serial_inj id' id (hwell.path_lt _ hpath) hid (hsame.trans hserial.symm)
      rw [hsame]
      exact hf
    · rw [Function.update_of_ne hk] at hne
      exact h.only id' hpath hne
  · simp
  · intro off'' hoff''
    obtain rfl := TailPc.reading.inj hoff''
    exact ⟨id, serial, hf, fun _ => ⟨hpos, hoff⟩⟩
  · intro found hfound
    refine (h.polled found hfound).imp (fun hcovered => ?_) fun hpending => ?_
    · exact hcovered.trans (Lines.complete_mono (hgrown found.1))
    · simp only [Pending, hpc] at hpending
      exact hpending

/-- In a file that was read up to the end of a line, a whole line that begins before the end of what
was read does not go beyond it. -/
theorem le_of_lt_seen {data l more : List UInt8} {off seen : ℕ}
    (hat : Lines.AtLine 10 (data.take seen)) (hlen : seen ≤ data.length) (hlt : off < seen)
    (hrest : data.drop off = l ++ 10 :: more) (hlf : 10 ∉ l) : off + (l ++ [10]).length ≤ seen := by
  by_contra hgt
  simp only [List.length_append, List.length_singleton] at hgt
  rcases hat.eq_nil_or with hnil | ⟨t, ht⟩
  · have := congrArg List.length hnil
    simp only [List.length_take, List.length_nil] at this
    omega
  · -- the last byte that was read is a `\n`, and it is in the line
    have hlast : (data.take seen)[seen - 1]? = some 10 := by
      have hlength : t.length = seen - 1 := by
        have := congrArg List.length ht
        simp only [List.length_take, List.length_append, List.length_singleton] at this
        omega
      rw [ht, ← hlength]
      simp
    have hbyte : (data.drop off)[seen - 1 - off]? = some 10 := by
      rw [List.getElem?_take, if_pos (by omega)] at hlast
      rw [List.getElem?_drop, Nat.add_sub_cancel' (by omega)]
      exact hlast
    rw [hrest, List.getElem?_append_left (by omega)] at hbyte
    exact hlf (List.mem_of_getElem? hbyte)

/-- The loop takes a line, or it is at the end of the file. -/
theorem step_readline {off id serial : ℕ} (hpc : s.pc = .reading off)
    (hf : s.f = .opened id serial) (h : step J s .readline = some s') :
    (s.file id).data.drop off = [] ∧ s' = { s with pc := .top } ∨
      (s.file id).data.drop off ≠ [] ∧
        s' = readLine J s serial off (takeLine ((s.file id).data.drop off)) := by
  rcases s with ⟨path, file, files, serials, inode, pos, f, pc, seen, alerts, flows, polled⟩
  obtain rfl := hpc
  obtain rfl := hf
  simp only [step] at h ⊢
  cases hrest : (file id).data.drop off with
  | nil =>
    rw [hrest] at h
    exact .inl ⟨rfl, (Option.some.inj h).symm⟩
  | cons b rest =>
    rw [hrest] at h
    exact .inr ⟨List.cons_ne_nil _ _, (Option.some.inj h).symm⟩

theorem Inv.readline (h : Inv J read s) (hclean : Clean J s .readline)
    (hstep : step J s .readline = some s') : ∃ read', Inv J read' s' := by
  obtain ⟨off, id, serial, hpc, hf⟩ :
      ∃ off id serial, s.pc = .reading off ∧ s.f = .opened id serial := by
    cases hpc : s.pc with
    | top => simp [step, hpc] at hstep
    | opening st => simp [step, hpc] at hstep
    | reading off =>
      obtain ⟨id, serial, hf, -⟩ := h.reading off hpc
      exact ⟨off, id, serial, rfl, hf⟩
  obtain ⟨hserial, hrest⟩ := hclean off id serial hpc hf
  obtain ⟨hread, hpos, hlen⟩ := h.read_eq id serial hf hserial
  have hoff : s.pos ≤ off ∧ off ≤ s.seen := by
    obtain ⟨id', serial', hf', hle⟩ := h.reading off hpc
    obtain ⟨rfl, rfl⟩ := Handle.opened.inj (hf.symm.trans hf')
    exact hle hserial
  have hwell := h.wellFormed
  rcases step_readline hpc hf hstep with ⟨hnil, rfl⟩ | ⟨hne, rfl⟩
  · -- at the end of the file everything was read
    have hend : (s.file id).data.take s.seen = (s.file id).data := by
      rw [List.take_of_length_le]
      have hdrop := List.drop_eq_nil_iff.mp hnil
      omega
    refine ⟨read, ?_⟩
    constructor
    · exact ⟨hwell.path_lt, hwell.serial_lt, hwell.serial_inj⟩
    · exact h.atLine
    · exact h.alerts
    · exact h.fresh
    · exact h.notClosed
    · exact h.opened
    · exact h.read_eq
    · exact h.only
    · simp
    · simp
    · intro found hfound
      rcases h.polled found hfound with hcovered | hpending
      · exact .inl hcovered
      left
      simp only [Pending, hpc] at hpending
      obtain ⟨id', hf', hdata⟩ := hpending
      obtain ⟨rfl, rfl⟩ := Handle.opened.inj (hf.symm.trans hf')
      rw [Covered, hread, hend]
      exact Lines.complete_mono (hdata hserial)
  · obtain ⟨l, more, hl, hlf, hcr, ⟨line, hline, hraised⟩, hagain⟩ := hrest.resolve_left hne
    rw [hl, takeLine_eq more hlf hcr]
    obtain ⟨flows, hafter⟩ := readLine_eq (s := s) serial off hline hraised
    rw [hafter]
    have hchars := length_of_decodeLine hline
    have hbytes : off + (l ++ [10]).length ≤ (s.file id).data.length := by
      have hsplit := congrArg List.length hl
      simp only [List.length_drop, List.length_append, List.length_cons] at hsplit
      simp only [List.length_append, List.length_singleton]
      omega
    have hat : Lines.AtLine 10 ((s.file id).data.take s.seen) := hread ▸ h.atLine serial
    rcases Nat.lt_or_ge off s.seen with hlt | hge
    · -- a line that was read before
      have hle := le_of_lt_seen hat hlen hlt hl hlf
      rw [hagain hlt, max_eq_left hle]
      refine ⟨_, h.advance hf hserial hpc (by omega) hle (Nat.le_refl _) hlen hat ?_ ?_⟩
      · intro k _
        simp
      · rw [← hread]
        simpa using h.alerts serial
    · -- the next line
      obtain rfl : off = s.seen := by omega
      rw [max_eq_right (by omega)]
      have htake : (s.file id).data.take (s.seen + (l ++ [10]).length) =
          (s.file id).data.take s.seen ++ (l ++ [10]) := by
        rw [List.take_add, hl]
        have hwhole : l ++ 10 :: more = (l ++ [10]) ++ more := by simp
        rw [hwhole, List.take_left]
      have hlength : ((s.file id).data.take s.seen).length = s.seen := by
        rw [List.length_take]
        omega
      refine ⟨_, h.advance hf hserial hpc (by omega) (Nat.le_refl _) (by omega) hbytes ?_ ?_ ?_⟩
      · rw [htake, ← List.append_assoc]
        exact Lines.atLine_append_sep _
      · intro k hk
        cases alertOf J (l ++ [10]) with
        | none => simp
        | some ev => simp [hk.symm]
      · have hold := h.alerts serial
        rw [hread] at hold
        rw [List.filter_append, hold, htake, alertsIn, alertsIn,
          Lines.complete_append_line hat hlf, List.filterMap_append, hlength]
        cases halert : alertOf J (l ++ [10]) with
        | none => simp [halert]
        | some ev => simp [halert]

/-- A clean step keeps the invariant. -/
theorem Inv.next {a : TailStep} (h : Inv J read s) (hclean : Clean J s a)
    (hstep : step J s a = some s') : ∃ read', Inv J read' s' := by
  cases a with
  | append id bytes => exact ⟨read, h.world (h.wellFormed.append hstep)⟩
  | truncate id size => exact ⟨read, h.world (h.wellFormed.truncate hstep)⟩
  | rotate ino => exact ⟨read, h.world (h.wellFormed.rotate hstep)⟩
  | remove => exact ⟨read, h.world (h.wellFormed.remove hstep)⟩
  | stat => exact ⟨read, h.stat hclean hstep⟩
  | openFile => exact ⟨read, h.openFile hclean hstep⟩
  | readline => exact h.readline hclean hstep

/-- An alert is a line that does not raise. -/
theorem exists_of_alertOf {bytes : List UInt8} {ev : PyVal Obj} (h : alertOf J bytes = some ev) :
    ∃ line, decodeLine bytes = some line ∧ handleLine J line = .alert ev := by
  unfold alertOf at h
  cases hline : decodeLine bytes with
  | none => simp [hline] at h
  | some line =>
    refine ⟨line, rfl, ?_⟩
    rw [hline, Option.map_some] at h
    split at h
    · rename_i ev' hev
      obtain rfl := Option.some.inj h
      exact Option.some.inj hev
    · exact absurd h (by simp)

/-- A line that is written as a whole, and a poll. -/
def wholeLine (l : List UInt8) : List TailStep :=
  [.rotate 1, .append 0 (l ++ [10]), .stat, .openFile, .readline, .readline]

/-- The file is written. -/
def written (l : List UInt8) : Tail Obj :=
  { (initial : Tail Obj) with
    path := some 0
    file := Function.update (Function.update (fun _ => ⟨0, 0, []⟩) 0 ⟨1, 0, []⟩) 0 ⟨1, 0, l ++ [10]⟩
    files := 1
    serials := 1 }

/-- The file is found. -/
def found (l : List UInt8) : Tail Obj :=
  { (written l : Tail Obj) with
    polled := [(0, l ++ [10])]
    pc := .opening ⟨1, (l ++ [10]).length, 0, 0⟩ }

/-- The file is opened. -/
def openedLine (l : List UInt8) : Tail Obj :=
  { (found l : Tail Obj) with f := .opened 0 0, inode := some 1, pc := .reading 0 }

/-- The run is clean. -/
theorem always_wholeLine {l : List UInt8} (hlf : 10 ∉ l) (hcr : 13 ∉ l.dropLast)
    {line : List Char} (hline : decodeLine (l ++ [10]) = some line)
    (hraised : handleLine J line ≠ .raised) :
    Always (step J) (Clean J) initial (wholeLine l) := by
  refine always_cons trivial fun t ht => ?_
  obtain rfl := Option.some.inj ht
  refine always_cons trivial fun t ht => ?_
  obtain rfl : written l = t := Option.some.inj ht
  refine always_cons ?_ fun t ht => ?_
  · rintro id - - id' serial hf
    exact absurd hf (by simp [written, initial])
  obtain rfl : found l = t := Option.some.inj ht
  refine always_cons ?_ fun t ht => ?_
  · intro st hst
    obtain rfl := TailPc.opening.inj hst
    exact ⟨rfl, rfl⟩
  obtain rfl : openedLine l = t := Option.some.inj ht
  refine always_cons ?_ fun t ht => ?_
  · intro off id serial hpc hf
    obtain rfl := TailPc.reading.inj hpc
    obtain ⟨rfl, rfl⟩ := Handle.opened.inj hf
    exact ⟨rfl, .inr ⟨l, [], rfl, hlf, hcr, ⟨line, hline, hraised⟩,
      fun hlt => absurd hlt (Nat.lt_irrefl 0)⟩⟩
  rcases step_readline rfl rfl ht with ⟨hnil, -⟩ | ⟨-, hafter⟩
  · have hbytes : l ++ [10] = [] := hnil
    exact absurd hbytes (by simp)
  have hdrop : ((openedLine l : Tail Obj).file 0).data.drop 0 = l ++ [10] := rfl
  rw [hdrop, takeLine_eq [] hlf hcr] at hafter
  refine always_cons ?_ fun _ _ => always_nil _
  intro off id serial hpc hf
  rw [hafter, pc_readLine hline hraised] at hpc
  rw [hafter, f_readLine] at hf
  obtain rfl := TailPc.reading.inj hpc
  obtain ⟨rfl, rfl⟩ := Handle.opened.inj hf
  rw [hafter, file_readLine]
  refine ⟨rfl, .inl ?_⟩
  show List.drop (0 + (l ++ [10]).length) (l ++ [10]) = []
  simp

/-- The start of an alert line. -/
def firstHalf : List UInt8 := Utf8.encode "\x7b\"event_type\": \"al".toList

/-- The rest of it. -/
def secondHalf : List UInt8 := Utf8.encode "ert\"\x7d".toList

/-- An alert line that is written in two pieces, with a poll after each. -/
def halves : List TailStep :=
  [.rotate 1, .append 0 firstHalf, .stat, .openFile, .readline, .readline,
    .append 0 (secondHalf ++ [10]), .stat, .readline, .readline]

end Tail

end ControlPlane.Ids
