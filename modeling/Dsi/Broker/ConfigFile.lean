import Mathlib.Data.List.DropRight
import Dsi.Broker.Tables

/-!
# Dsi.Broker.ConfigFile

`ConfigFile::load`: the configuration file of a servicebroker is read in pieces of at most 1023
characters, and every piece is parsed as a line.

* `loadsLines_iff`: when the loaded sets are those of the lines, and nothing else was parsed;
* `isLocalService_load`: what is local after such a file was loaded.
-/

namespace Dsi

/-- `ConfigFile`. -/
structure ConfigFile where
  mLocalServices : List CString := []
  mGlobalServices : List CString := []
  mForwardServices : List CString := []
  mTreeMode : Bool := false
  deriving DecidableEq, Repr

namespace ConfigFile

/-- The states of the parser. -/
inductive State where
  | stateIgnore
  | stateLocal
  | stateGlobal
  | stateForward
  deriving DecidableEq, Repr

/-! ## The parser -/

/-- `fgets` with room for some more characters: what it stores, and what is left of the file. -/
def fgetsLoop : Nat → CString → CString × CString
  | 0, text => ([], text)
  | _ + 1, [] => ([], [])
  | room + 1, c :: text =>
      if c = 10 then ([c], text)
      else (c :: (fgetsLoop room text).1, (fgetsLoop room text).2)

/-- `fgets(line, sizeof(line), f)`, nothing at the end of the file. -/
def fgets : CString → Option (CString × CString)
  | [] => none
  | text => some (fgetsLoop 1023 text)

/-- `*end <= 0x20`, where `char` is signed. -/
def isTrimmed (c : UInt8) : Bool := c.toInt8 ≤ 0x20

/-- What is left of the buffer without the comment and right trimmed. -/
def trimLine (line : CString) : CString :=
  ((line.takeWhile (· ≠ 0)).takeWhile (· ≠ 35)).rdropWhile isTrimmed

/-- The state for the name of a section. -/
def sectionState (sectionName : CString) : State :=
  if sectionName = [76, 79, 67, 65, 76] then .stateLocal
  else if sectionName = [71, 76, 79, 66, 65, 76] then .stateGlobal
  else if sectionName = [70, 79, 82, 87, 65, 82, 68] then .stateForward
  else .stateIgnore

/-- The state after a line that begins with `[`. -/
def headerState (line : CString) : State :=
  if 93 ∈ line then sectionState ((line.drop 1).takeWhile (· ≠ 93)) else .stateIgnore

/-- A service enters the set of the section. -/
def insertService (state : State) (line : CString) (file : ConfigFile) : ConfigFile :=
  match state with
  | .stateLocal => { file with mLocalServices := file.mLocalServices.insert line }
  | .stateGlobal => { file with mGlobalServices := file.mGlobalServices.insert line }
  | .stateForward => { file with mForwardServices := file.mForwardServices.insert line }
  | .stateIgnore => file

/-- What `load` does with the contents of its buffer. -/
def loadLine (st : State × ConfigFile) (line : CString) : State × ConfigFile :=
  match trimLine line with
  | [] => st
  | c :: text =>
      if c = 91 then (headerState (c :: text), st.2)
      else (st.1, insertService st.1 (c :: text) st.2)

/-- A read leaves less of the text. -/
theorem length_fgetsLoop (room : Nat) (text : CString) :
    (fgetsLoop room text).2.length ≤ text.length ∧
      (0 < room → text ≠ [] → (fgetsLoop room text).2.length < text.length) := by
  induction room generalizing text with
  | zero => exact ⟨Nat.le_refl _, fun h => absurd h (Nat.lt_irrefl 0)⟩
  | succ room ih =>
      cases text with
      | nil => exact ⟨Nat.le_refl _, fun _ h => absurd rfl h⟩
      | cons c text =>
          rw [fgetsLoop]
          have hle := (ih text).1
          split
          · exact ⟨Nat.le_succ _, fun _ _ => Nat.lt_succ_self _⟩
          · exact ⟨Nat.le_succ_of_le hle, fun _ _ => Nat.lt_succ_of_le hle⟩

/-- So does a line. -/
theorem length_of_fgets {text line rest : CString} (h : fgets text = some (line, rest)) :
    rest.length < text.length := by
  cases text with
  | nil => cases h
  | cons c text =>
      have hrest : (fgetsLoop 1023 (c :: text)).2 = rest := congrArg Prod.snd (Option.some.inj h)
      rw [← hrest]
      exact (length_fgetsLoop 1023 (c :: text)).2 (by decide) (List.cons_ne_nil c text)

/-- The loop of `load`. -/
def loadLoop (text : CString) (st : State × ConfigFile) : State × ConfigFile :=
  match _h : fgets text with
  | none => st
  | some (line, rest) => loadLoop rest (loadLine st line)
termination_by text.length
decreasing_by exact length_of_fgets _h

/-- `ConfigFile::load`, of a file that cannot be opened or has a text. -/
def load (file : ConfigFile) : Option CString → ConfigFile
  | none => file
  | some text => (loadLoop text (.stateIgnore, file)).2

/-! ## Lines -/

/-- The lines of a text, with the newlines that end them. -/
def linesOf : CString → List CString
  | [] => []
  | c :: text =>
      if c = 10 then [c] :: linesOf text
      else
        match linesOf text with
        | [] => [[c]]
        | line :: lines => (c :: line) :: lines

/-- The pieces that a line is read in. -/
def pieces (line : CString) : List CString :=
  if line = [] then [] else line.take 1023 :: pieces (line.drop 1023)
termination_by line.length
decreasing_by
  rw [List.length_drop]
  have := List.length_pos_iff.mpr ‹line ≠ []›
  omega

/-- White space. -/
def isSpace (c : UInt8) : Bool := c ≤ 0x20

/-- The text of a line, without its comment and the white space at its end. -/
def lineText (line : CString) : CString := (line.takeWhile (· ≠ 35)).rdropWhile isSpace

/-- The section after a line. -/
def sectionAfter (state : State) (line : CString) : State :=
  if line.head? = some 91 then headerState (lineText line) else state

/-- The lines with the sections that they stand in, a header in the one that it starts. -/
def sectioned (state : State) : List CString → List (State × CString)
  | [] => []
  | line :: lines => (sectionAfter state line, line) :: sectioned (sectionAfter state line) lines

/-- The entry that a text stands for in a section. -/
def entryOf (state : State) (text : CString) : Option (State × CString) :=
  if text = [] ∨ text.head? = some 91 ∨ state = .stateIgnore then none else some (state, text)

/-- The entries of a text. -/
def entries (text : CString) : List (State × CString) :=
  (sectioned .stateIgnore (linesOf text)).filterMap (fun l => entryOf l.1 (lineText l.2))

/-- The set of a section. -/
def services (file : ConfigFile) : State → List CString
  | .stateIgnore => []
  | .stateLocal => file.mLocalServices
  | .stateGlobal => file.mGlobalServices
  | .stateForward => file.mForwardServices

/-- The pieces with the state that the parser is in when it reads them. -/
def readIn (st : State × ConfigFile) : List CString → List (State × CString)
  | [] => []
  | piece :: rest => (st.1, piece) :: readIn (loadLine st piece) rest

/-- The fragments of lines: the pieces that a line goes on with. -/
def fragments (st : State × ConfigFile) : List CString → List (State × CString)
  | [] => []
  | line :: lines =>
      (readIn st (pieces line)).tail ++ fragments ((pieces line).foldl loadLine st) lines

/-- A piece becomes a header or an entry. -/
def Becomes (state : State) (piece : CString) : Prop :=
  (trimLine piece).head? = some 91 ∨ entryOf state (trimLine piece) ≠ none

/-- What `load` is to do with a text: the sets are filled with the entries of their sections, and
no fragment of a line becomes anything. -/
structure LoadsLines (text : CString) : Prop where
  services_iff : ∀ state name,
    name ∈ (load {} (some text)).services state ↔ (state, name) ∈ entries text
  whole : ∀ p ∈ fragments (.stateIgnore, {}) (linesOf text), ¬ Becomes p.1 p.2

/-- A line that is read as it stands: what it goes on with behind its first 1023 characters is no
header, and in a section that counts it is blank as far as it is no comment; there the text does
not end in a byte that counts as negative. -/
structure Legible (state : State) (line : CString) : Prop where
  header : ∀ piece ∈ (pieces line).tail, piece.head? ≠ some 91
  blank : state ≠ .stateIgnore → ∀ piece ∈ (pieces line).tail,
    ∀ c ∈ piece.takeWhile (· ≠ 35), c ≤ 0x20 ∨ 0x80 ≤ c
  ascii : state ≠ .stateIgnore → line.head? ≠ some 91 →
    ∀ c ∈ (lineText line).getLast?, c < 0x80

/-! ## Reading in pieces -/

/-- What `fgets` takes of a text is a piece of its first line, and the lines of the rest are what
the line goes on with, if it does, and the other lines. -/
theorem fgetsLoop_eq (room : Nat) {text : CString} (h : text ≠ []) :
    ∃ line lines, linesOf text = line :: lines ∧ line ≠ [] ∧
      (fgetsLoop room text).1 = line.take room ∧
      linesOf (fgetsLoop room text).2 =
        if line.drop room = [] then lines else line.drop room :: lines := by
  induction room generalizing text with
  | zero =>
      obtain ⟨line, lines, hlines, hne⟩ :
          ∃ line lines, linesOf text = line :: lines ∧ line ≠ [] := by
        cases text with
        | nil => exact absurd rfl h
        | cons c text =>
            rw [linesOf]
            split
            · exact ⟨_, _, rfl, List.cons_ne_nil _ _⟩
            · split
              · exact ⟨_, _, rfl, List.cons_ne_nil _ _⟩
              · exact ⟨_, _, rfl, List.cons_ne_nil _ _⟩
      exact ⟨line, lines, hlines, hne, rfl, by rw [List.drop_zero, if_neg hne]; exact hlines⟩
  | succ room ih =>
      obtain ⟨c, text, rfl⟩ := List.exists_cons_of_ne_nil h
      rw [fgetsLoop, linesOf]
      by_cases hc : c = 10
      · rw [if_pos hc, if_pos hc]
        exact ⟨[c], linesOf text, rfl, List.cons_ne_nil _ _, by simp, by simp⟩
      · rw [if_neg hc, if_neg hc]
        by_cases htext : text = []
        · subst htext
          exact ⟨[c], [], rfl, List.cons_ne_nil _ _, by cases room <;> rfl, by cases room <;> rfl⟩
        · obtain ⟨line, lines, hlines, -, hline, hrest⟩ := ih htext
          rw [hlines]
          exact ⟨c :: line, lines, rfl, List.cons_ne_nil _ _, by rw [hline]; rfl, hrest⟩

@[simp] theorem pieces_nil : pieces [] = [] := by rw [pieces, if_pos rfl]

/-- A line is read in pieces of 1023 bytes. -/
theorem pieces_of_ne_nil {line : CString} (h : line ≠ []) :
    pieces line = line.take 1023 :: pieces (line.drop 1023) := by rw [pieces, if_neg h]

/-- `load` parses the pieces of the lines one after the other. -/
theorem loadLoop_eq (text : CString) (st : State × ConfigFile) :
    loadLoop text st = ((linesOf text).flatMap pieces).foldl loadLine st := by
  induction hn : text.length using Nat.strongRecOn generalizing text st with
  | _ n ih =>
      rw [loadLoop]
      split
      · next h =>
        cases text with
        | nil => rfl
        | cons c text => cases h
      · next line rest h =>
        have hlt := length_of_fgets h
        have htext : text ≠ [] := by
          rintro rfl
          cases h
        obtain ⟨first, lines, hlines, hne, hline, hrest⟩ := fgetsLoop_eq 1023 htext
        have hfgets : fgetsLoop 1023 text = (line, rest) := by
          obtain ⟨c, tail, rfl⟩ := List.exists_cons_of_ne_nil htext
          exact Option.some.inj h
        rw [hfgets] at hline hrest
        rw [ih rest.length (hn ▸ hlt) rest _ rfl, hlines, List.flatMap_cons, pieces_of_ne_nil hne,
          ← hline]
        change _ = (pieces (first.drop 1023) ++ lines.flatMap pieces).foldl loadLine
          (loadLine st line)
        rw [show linesOf rest = _ from hrest]
        split
        · next hnil => rw [hnil, pieces_nil, List.nil_append]
        · rw [List.flatMap_cons]

/-! ## Trimming -/

/-- The characters that count as negative are trimmed, too. -/
theorem isTrimmed_iff (c : UInt8) : isTrimmed c = true ↔ c ≤ 0x20 ∨ 0x80 ≤ c := by
  rw [isTrimmed, decide_eq_true_iff, Int8.le_iff_toInt_le, UInt8.le_iff_toNat_le,
    UInt8.le_iff_toNat_le]
  have htoInt : c.toInt8.toInt = (c.toNat : Int).bmod 256 :=
    BitVec.toInt_eq_toNat_bmod c.toBitVec
  have hlt := c.toNat_lt
  have h20 : (0x20 : Int8).toInt = 32 := rfl
  have h20' : (0x20 : UInt8).toNat = 32 := rfl
  have h80 : (0x80 : UInt8).toNat = 128 := rfl
  rw [htoInt, Int.bmod_def]
  omega

/-- White space is trimmed. -/
theorem isTrimmed_of_isSpace {c : UInt8} (h : isSpace c = true) : isTrimmed c = true :=
  (isTrimmed_iff c).mpr (Or.inl (of_decide_eq_true h))

section RightTrim

variable {α : Type} {p q : α → Bool} {l t : List α}

/-- What is trimmed at the end does not matter. -/
theorem rdropWhile_append_of_forall (h : ∀ x ∈ t, p x = true) :
    (l ++ t).rdropWhile p = l.rdropWhile p := by
  induction t using List.reverseRecOn with
  | nil => rw [List.append_nil]
  | append_singleton t x ih =>
      have hx : p x = true := h x (List.mem_append_right _ (List.mem_singleton_self x))
      rw [← List.append_assoc, List.rdropWhile_concat_pos _ _ _ hx]
      exact ih (fun y hy => h y (List.mem_append_left _ hy))

/-- Trimming more, after what was trimmed already. -/
theorem rdropWhile_rdropWhile (h : ∀ x, q x = true → p x = true) :
    (l.rdropWhile q).rdropWhile p = l.rdropWhile p := by
  induction l using List.reverseRecOn with
  | nil => rfl
  | append_singleton l x ih =>
      by_cases hx : q x = true
      · rw [List.rdropWhile_concat_pos _ _ _ hx, List.rdropWhile_concat_pos _ _ _ (h x hx), ih]
      · rw [List.rdropWhile_concat_neg _ _ _ hx]

end RightTrim

/-! ## Headers -/

/-- A line without NUL is cut at the comment and trimmed at the end. -/
theorem trimLine_eq {line : CString} (h : 0 ∉ line) :
    trimLine line = (line.takeWhile (· ≠ 35)).rdropWhile isTrimmed := by
  have hall : ∀ c ∈ line, decide (c ≠ 0) = true :=
    fun c hc => decide_eq_true fun h0 => h (h0 ▸ hc)
  rw [trimLine, List.takeWhile_eq_self_iff.mpr hall]

/-- A bracket at the beginning stays, and nothing else becomes one. -/
theorem head?_rdropWhile {p : UInt8 → Bool} (hp : p 91 = false) (line : CString) :
    ((line.takeWhile (· ≠ 35)).rdropWhile p).head? = some 91 ↔ line.head? = some 91 := by
  have hprefix : (line.takeWhile (· ≠ 35)).rdropWhile p <+: line :=
    (List.rdropWhile_prefix p _).trans (List.takeWhile_prefix _)
  constructor
  · intro h
    obtain ⟨t, ht⟩ := hprefix
    rw [← ht, List.head?_append, h]
    rfl
  · intro h
    obtain ⟨tail, rfl⟩ : ∃ tail, line = 91 :: tail := by
      cases line with
      | nil => cases h
      | cons c tail => exact ⟨tail, by rw [Option.some.inj h]⟩
    have hne : ((91 :: tail).takeWhile (· ≠ 35)).rdropWhile p ≠ [] := by
      intro hnil
      have h91 := List.rdropWhile_eq_nil_iff.mp hnil 91 (by simp)
      rw [hp] at h91
      cases h91
    obtain ⟨t, ht⟩ := hprefix
    obtain ⟨c, text, htext⟩ := List.exists_cons_of_ne_nil hne
    rw [htext] at ht ⊢
    exact congrArg some (List.cons.inj ht).1

/-- A header starts with a bracket, trimmed or not. -/
theorem head?_trimLine {line : CString} (h : 0 ∉ line) :
    (trimLine line).head? = some 91 ↔ line.head? = some 91 := by
  rw [trimLine_eq h]
  exact head?_rdropWhile (by decide) line

/-- The name of a section has at most seven characters. -/
theorem sectionState_of_length {name : CString} (h : 7 < name.length) :
    sectionState name = .stateIgnore := by
  have hne {s : CString} (hs : s.length ≤ 7) : name ≠ s := by
    rintro rfl
    omega
  rw [sectionState, if_neg (hne (by decide)), if_neg (hne (by decide)), if_neg (hne (by decide))]

/-- A header without its closing bracket begins no known section. -/
theorem headerState_of_not_mem {line : CString} (h : 93 ∉ line) :
    headerState line = .stateIgnore := if_neg h

/-- Nothing behind the closing bracket matters. -/
theorem headerState_append {line t : CString} (h : 93 ∈ line)
    (hhead : (line ++ t).head? = some 91) : headerState (line ++ t) = headerState line := by
  obtain ⟨c, text, rfl⟩ := List.exists_cons_of_ne_nil (List.ne_nil_of_mem h)
  have hc : c = 91 := Option.some.inj hhead
  have hmem : 93 ∈ text := by
    rcases List.mem_cons.mp h with h93 | hmem
    · rw [hc] at h93
      exact absurd h93 (by decide)
    · exact hmem
  have hstop : (text.takeWhile (· ≠ 93)).length ≠ text.length := by
    intro hlen
    have hall := List.takeWhile_eq_self_iff.mp
      ((List.takeWhile_prefix _).eq_of_length hlen) 93 hmem
    exact absurd rfl (of_decide_eq_true hall)
  have hname : ((c :: text ++ t).drop 1).takeWhile (· ≠ 93) = text.takeWhile (· ≠ 93) := by
    rw [List.cons_append, List.drop_succ_cons, List.drop_zero, List.takeWhile_append, if_neg hstop]
  rw [headerState, headerState, if_pos (List.mem_append_left _ h), if_pos h, hname]
  rfl

/-- Trimming does not change the section of a header, -/
theorem headerState_rdropWhile {p : UInt8 → Bool} (hp : p 93 = false) {line : CString}
    (hhead : line.head? = some 91) : headerState (line.rdropWhile p) = headerState line := by
  have hline : line.rdropWhile p ++ line.rtakeWhile p = line := List.rdropWhile_append_rtakeWhile
  by_cases h : 93 ∈ line.rdropWhile p
  · have happend := headerState_append (t := line.rtakeWhile p) h (by rw [hline]; exact hhead)
    rw [← happend, hline]
  · have hnot : 93 ∉ line := by
      intro hmem
      rw [← hline] at hmem
      rcases List.mem_append.mp hmem with h93 | h93
      · exact h h93
      · rw [List.mem_rtakeWhile_imp h93] at hp
        cases hp
    rw [headerState_of_not_mem h, headerState_of_not_mem hnot]

/-- nor does it if only the first 1023 characters are read. -/
theorem headerState_take {line : CString} (hhead : line.head? = some 91) :
    headerState (line.take 1023) = headerState line := by
  have hline : line.take 1023 ++ line.drop 1023 = line := List.take_append_drop 1023 line
  by_cases h : 93 ∈ line.take 1023
  · have happend := headerState_append (t := line.drop 1023) h (by rw [hline]; exact hhead)
    rw [← happend, hline]
  · rw [headerState_of_not_mem h]
    by_cases hdrop : 93 ∈ line.drop 1023
    · have hlong : 1023 < line.length := by
        have hpos := List.length_pos_of_mem hdrop
        rw [List.length_drop] at hpos
        omega
      have hname : (line.drop 1).take 1022 <+: (line.drop 1).takeWhile (· ≠ 93) := by
        have hall : ∀ c ∈ (line.drop 1).take 1022, decide (c ≠ 93) = true := by
          intro c hc
          refine decide_eq_true fun h93 => h ?_
          rw [← h93]
          rw [List.take_drop] at hc
          exact List.mem_of_mem_drop hc
        have hsplit := List.take_append_drop 1022 (line.drop 1)
        rw [← hsplit, List.takeWhile_append_of_pos hall, hsplit]
        exact List.prefix_append _ _
      have hlength := hname.length_le
      rw [List.length_take, List.length_drop] at hlength
      rw [headerState, if_pos (List.mem_of_mem_drop hdrop)]
      exact (sectionState_of_length (by omega)).symm
    · have hnot : 93 ∉ line := by
        intro hmem
        rw [← hline] at hmem
        exact (List.mem_append.mp hmem).elim h hdrop
      rw [headerState_of_not_mem hnot]

/-- The first piece of a header starts the section that the line names. -/
theorem headerState_piece {line : CString} (hzero : 0 ∉ line) (hhead : line.head? = some 91) :
    headerState (trimLine (line.take 1023)) = headerState (lineText line) := by
  have hcut : (line.takeWhile (· ≠ 35)).head? = some 91 := by
    rw [List.head?_takeWhile, hhead]
    rfl
  have htake : ((line.takeWhile (· ≠ 35)).take 1023).head? = some 91 := by
    rw [List.head?_take, if_neg (by decide), hcut]
  rw [trimLine_eq (fun h => hzero (List.mem_of_mem_take h)), ← List.take_takeWhile,
    headerState_rdropWhile (by decide) htake, headerState_take hcut, lineText,
    headerState_rdropWhile (by decide) hcut]

/-! ## Texts -/

/-- A line is its pieces. -/
theorem flatten_pieces (line : CString) : (pieces line).flatten = line := by
  induction hn : line.length using Nat.strongRecOn generalizing line with
  | _ n ih =>
      by_cases h : line = []
      · rw [h, pieces_nil, List.flatten_nil]
      · have hpos := List.length_pos_iff.mpr h
        have hrest := ih (line.drop 1023).length (by rw [List.length_drop]; omega) _ rfl
        rw [pieces_of_ne_nil h, List.flatten_cons, hrest, List.take_append_drop]

theorem mem_of_mem_pieces {line piece : CString} (h : piece ∈ pieces line) {c : UInt8}
    (hc : c ∈ piece) : c ∈ line := by
  rw [← flatten_pieces line]
  exact List.mem_flatten_of_mem h hc

/-- Pieces that are blank before their comments are so together. -/
theorem forall_mem_takeWhile_flatten {P : UInt8 → Prop} {ls : List CString}
    (h : ∀ piece ∈ ls, ∀ c ∈ piece.takeWhile (· ≠ 35), P c) :
    ∀ c ∈ ls.flatten.takeWhile (· ≠ 35), P c := by
  induction ls with
  | nil => exact fun c hc => absurd hc List.not_mem_nil
  | cons piece ls ih =>
      have hpiece := h piece List.mem_cons_self
      have hrest := ih fun q hq => h q (List.mem_cons_of_mem _ hq)
      intro c hc
      rw [List.flatten_cons, List.takeWhile_append] at hc
      split at hc
      · next hlen =>
        have hwhole := (List.takeWhile_prefix (fun c => decide (c ≠ 35))).eq_of_length hlen
        rcases List.mem_append.mp hc with hc | hc
        · exact hpiece c (by rw [hwhole]; exact hc)
        · exact hrest c hc
      · exact hpiece c hc

/-- The text of a line that goes on with blanks only is that of its first piece, unless it ends in
a byte that the parser trims. -/
theorem trimLine_take {line : CString} (hzero : 0 ∉ line)
    (hblank : ∀ piece ∈ (pieces line).tail, ∀ c ∈ piece.takeWhile (· ≠ 35), c ≤ 0x20 ∨ 0x80 ≤ c) :
    trimLine (line.take 1023) = (lineText line).rdropWhile isTrimmed := by
  have hrest : ∀ c ∈ (line.drop 1023).takeWhile (· ≠ 35), isTrimmed c = true := by
    by_cases h : line = []
    · subst h
      exact fun c hc => absurd hc List.not_mem_nil
    · rw [pieces_of_ne_nil h, List.tail_cons] at hblank
      have hall := forall_mem_takeWhile_flatten hblank
      rw [flatten_pieces] at hall
      exact fun c hc => (isTrimmed_iff c).mpr (hall c hc)
  rw [trimLine_eq (fun h => hzero (List.mem_of_mem_take h)), lineText,
    rdropWhile_rdropWhile fun c hc => isTrimmed_of_isSpace hc]
  conv_rhs => rw [← List.take_append_drop 1023 line, List.takeWhile_append]
  split
  · next hlen =>
    rw [rdropWhile_append_of_forall hrest,
      (List.takeWhile_prefix (fun c => decide (c ≠ 35))).eq_of_length hlen]
  · rfl

/-- Such a text is kept exactly when it does not end in a byte that counts as negative. -/
theorem rdropWhile_lineText (line : CString) :
    (lineText line).rdropWhile isTrimmed = lineText line ↔
      ∀ c ∈ (lineText line).getLast?, c < 0x80 := by
  rw [List.rdropWhile_eq_self_iff]
  by_cases hne : lineText line = []
  · rw [hne]
    exact iff_of_true (fun h => absurd rfl h) (fun c hc => by cases hc)
  · have hspace : ¬ isSpace ((lineText line).getLast hne) = true :=
      List.rdropWhile_last_not isSpace _ hne
    rw [isSpace, decide_eq_true_iff] at hspace
    rw [List.getLast?_eq_some_getLast hne]
    simp only [isTrimmed_iff, hspace, false_or, Option.mem_some_iff, forall_eq', UInt8.not_le]
    exact ⟨fun h => h hne, fun h _ => h⟩

/-! ## Steps -/

/-- A text is an entry of the section that it is in. -/
theorem entryOf_eq_some {state state' : State} {text name : CString} :
    entryOf state text = some (state', name) ↔
      (text ≠ [] ∧ text.head? ≠ some 91 ∧ state ≠ .stateIgnore) ∧ state = state' ∧ text = name := by
  rw [entryOf]
  split
  · next h =>
    refine iff_of_false (by simp) fun ⟨⟨htext, hhead, hstate⟩, _⟩ => ?_
    exact h.elim htext fun h => h.elim hhead hstate
  · next h =>
    simp only [not_or] at h
    simp [h]

/-- Empty texts, headers and texts of unknown sections are none. -/
theorem entryOf_eq_none {state : State} {text : CString} :
    entryOf state text = none ↔ text = [] ∨ text.head? = some 91 ∨ state = .stateIgnore := by
  rw [entryOf]
  split
  · next h => exact iff_of_true rfl h
  · next h => exact iff_of_false (by simp) h

/-- A set gets a new element when the section does. -/
theorem mem_services_insertService (file : ConfigFile) (section' state : State)
    (line name : CString) :
    name ∈ (insertService section' line file).services state ↔
      name ∈ file.services state ∨ section' ≠ .stateIgnore ∧ section' = state ∧ line = name := by
  cases section' <;> cases state <;>
    simp [insertService, services, List.mem_insert_iff, or_comm, eq_comm]

/-- A line adds its entry. -/
theorem mem_services_loadLine (st : State × ConfigFile) (piece : CString) (state : State)
    (name : CString) :
    name ∈ (loadLine st piece).2.services state ↔
      name ∈ st.2.services state ∨ entryOf st.1 (trimLine piece) = some (state, name) := by
  rw [entryOf_eq_some, loadLine]
  cases htrim : trimLine piece with
  | nil => simp
  | cons c text =>
      by_cases hc : c = 91
      · simp [hc]
      · simp only [if_neg hc, mem_services_insertService]
        simp [hc]

/-- Only a header begins another section. -/
theorem fst_loadLine (st : State × ConfigFile) {piece : CString} (h : 0 ∉ piece) :
    (loadLine st piece).1 =
      if piece.head? = some 91 then headerState (trimLine piece) else st.1 := by
  have hhead := head?_trimLine h
  rw [loadLine]
  cases htrim : trimLine piece with
  | nil =>
      rw [htrim] at hhead
      rw [if_neg (fun h91 => nomatch hhead.mpr h91)]
  | cons c text =>
      rw [htrim, List.head?_cons, Option.some_inj] at hhead
      simp only [← hhead]
      split <;> rfl

/-- A piece that becomes nothing changes nothing. -/
theorem loadLine_eq_self {st : State × ConfigFile} {piece : CString}
    (h : ¬ Becomes st.1 piece) : loadLine st piece = st := by
  obtain ⟨hhead, hentry⟩ := not_or.mp h
  have hentry := entryOf_eq_none.mp (not_not.mp hentry)
  rw [loadLine]
  cases htrim : trimLine piece with
  | nil => rfl
  | cons c text =>
      rw [htrim] at hhead hentry
      have hc : c ≠ 91 := fun h91 => hhead (congrArg some h91)
      have hstate : st.1 = .stateIgnore :=
        (hentry.resolve_left (List.cons_ne_nil c text)).resolve_left hhead
      simp only [if_neg hc, hstate, insertService]
      rw [← hstate]

/-- What a piece must look like to be without effect. -/
theorem not_becomes_iff {state : State} {piece : CString} (h : 0 ∉ piece) :
    ¬ Becomes state piece ↔ piece.head? ≠ some 91 ∧
      (state ≠ .stateIgnore → ∀ c ∈ piece.takeWhile (· ≠ 35), c ≤ 0x20 ∨ 0x80 ≤ c) := by
  have hblank : trimLine piece = [] ↔ ∀ c ∈ piece.takeWhile (· ≠ 35), c ≤ 0x20 ∨ 0x80 ≤ c := by
    rw [trimLine_eq h, List.rdropWhile_eq_nil_iff]
    simp only [isTrimmed_iff]
  rw [Becomes, not_or, head?_trimLine h, not_not, entryOf_eq_none, head?_trimLine h, ← hblank]
  by_cases hstate : state = .stateIgnore <;> simp +contextual [hstate]

/-- After its first piece a line has the parser in the section that the line stands in. -/
theorem fst_loadLine_take (st : State × ConfigFile) {line : CString} (h : 0 ∉ line) :
    (loadLine st (line.take 1023)).1 = sectionAfter st.1 line := by
  have hhead : (line.take 1023).head? = line.head? := by rw [List.head?_take, if_neg (by decide)]
  rw [fst_loadLine st (fun hmem => h (List.mem_of_mem_take hmem)), hhead, sectionAfter]
  split
  · next hhead => rw [headerState_piece h hhead]
  · rfl

/-- Pieces that become nothing where they are read leave the parser where it is. -/
theorem forall_readIn {ps : List CString} {st : State × ConfigFile} :
    (∀ p ∈ readIn st ps, ¬ Becomes p.1 p.2) ↔ ∀ piece ∈ ps, ¬ Becomes st.1 piece := by
  induction ps with
  | nil => exact iff_of_true (fun p hp => nomatch hp) (fun p hp => nomatch hp)
  | cons piece ps ih =>
      rw [readIn, List.forall_mem_cons, List.forall_mem_cons]
      exact and_congr_right fun h => by rw [loadLine_eq_self h, ih]

/-- Pieces without effect leave everything as it is. -/
theorem foldl_loadLine_eq_self {ps : List CString} {st : State × ConfigFile}
    (h : ∀ piece ∈ ps, ¬ Becomes st.1 piece) : ps.foldl loadLine st = st := by
  induction ps with
  | nil => rfl
  | cons piece ps ih =>
      obtain ⟨hpiece, hps⟩ := List.forall_mem_cons.mp h
      rw [List.foldl_cons, loadLine_eq_self hpiece, ih hps]

/-! ## Runs -/

/-- A line is not empty and comes from the text. -/
theorem forall_mem_linesOf (text : CString) :
    ∀ line ∈ linesOf text, line ≠ [] ∧ ∀ c ∈ line, c ∈ text := by
  induction text with
  | nil => exact fun line hline => nomatch hline
  | cons c text ih =>
      have hcons {l : CString} (hl : ∀ d ∈ l, d ∈ text) : ∀ d ∈ c :: l, d ∈ c :: text := by
        intro d hd
        exact (List.mem_cons.mp hd).elim (fun h => h ▸ List.mem_cons_self)
          (fun h => List.mem_cons_of_mem _ (hl d h))
      intro line hline
      rw [linesOf] at hline
      split at hline
      · rcases List.mem_cons.mp hline with rfl | hmem
        · exact ⟨List.cons_ne_nil _ _, hcons (fun d hd => nomatch hd)⟩
        · exact ⟨(ih line hmem).1, fun d hd => List.mem_cons_of_mem _ ((ih line hmem).2 d hd)⟩
      · split at hline
        · rw [List.mem_singleton.mp hline]
          exact ⟨List.cons_ne_nil _ _, hcons (fun d hd => nomatch hd)⟩
        · next first lines hlines =>
          rw [hlines] at ih
          rcases List.mem_cons.mp hline with rfl | hmem
          · exact ⟨List.cons_ne_nil _ _, hcons (ih first List.mem_cons_self).2⟩
          · have hrest := ih line (List.mem_cons_of_mem _ hmem)
            exact ⟨hrest.1, fun d hd => List.mem_cons_of_mem _ (hrest.2 d hd)⟩

/-- No fragment becomes anything exactly when the lines go on as legible ones do, and then the
parser is in the section of the file at every line. -/
theorem forall_fragments {lines : List CString} (hlines : ∀ line ∈ lines, line ≠ [] ∧ 0 ∉ line)
    (st : State × ConfigFile) :
    (∀ p ∈ fragments st lines, ¬ Becomes p.1 p.2) ↔
      ∀ l ∈ sectioned st.1 lines, ∀ piece ∈ (pieces l.2).tail, ¬ Becomes l.1 piece := by
  induction lines generalizing st with
  | nil => exact iff_of_true (fun p hp => nomatch hp) (fun p hp => nomatch hp)
  | cons line lines ih =>
      obtain ⟨⟨hne, hzero⟩, hrest⟩ := List.forall_mem_cons.mp hlines
      rw [fragments, sectioned, List.forall_mem_append, List.forall_mem_cons, pieces_of_ne_nil hne,
        readIn, List.tail_cons, List.tail_cons, forall_readIn, fst_loadLine_take st hzero,
        List.foldl_cons]
      refine and_congr_right fun h => ?_
      have hstay : (pieces (line.drop 1023)).foldl loadLine (loadLine st (line.take 1023)) =
          loadLine st (line.take 1023) :=
        foldl_loadLine_eq_self (by rw [fst_loadLine_take st hzero]; exact h)
      rw [hstay, ih hrest, fst_loadLine_take st hzero]

/-- The entry of a line is told by the section before it as well. -/
theorem entryOf_sectionAfter (state : State) {line : CString} (h : 0 ∉ line) :
    entryOf state (trimLine (line.take 1023)) =
      entryOf (sectionAfter state line) (trimLine (line.take 1023)) := by
  rw [sectionAfter]
  split
  · next hhead =>
    have htrim : (trimLine (line.take 1023)).head? = some 91 := by
      rw [head?_trimLine (fun hmem => h (List.mem_of_mem_take hmem)), List.head?_take,
        if_neg (by decide), hhead]
    rw [entryOf_eq_none.mpr (Or.inr (Or.inl htrim)), entryOf_eq_none.mpr (Or.inr (Or.inl htrim))]
  · rfl

/-- Then the sets hold what the first pieces of the lines give. -/
theorem mem_services_foldl {lines : List CString} (hlines : ∀ line ∈ lines, line ≠ [] ∧ 0 ∉ line)
    (st : State × ConfigFile)
    (hquiet : ∀ l ∈ sectioned st.1 lines, ∀ piece ∈ (pieces l.2).tail, ¬ Becomes l.1 piece)
    (state : State) (name : CString) :
    name ∈ ((lines.flatMap pieces).foldl loadLine st).2.services state ↔
      name ∈ st.2.services state ∨ ∃ l ∈ sectioned st.1 lines,
        entryOf l.1 (trimLine (l.2.take 1023)) = some (state, name) := by
  induction lines generalizing st with
  | nil => simp [sectioned]
  | cons line lines ih =>
      obtain ⟨⟨hne, hzero⟩, hrest⟩ := List.forall_mem_cons.mp hlines
      rw [sectioned, List.forall_mem_cons, pieces_of_ne_nil hne, List.tail_cons] at hquiet
      obtain ⟨hline, hquiet⟩ := hquiet
      have hstate := fst_loadLine_take st hzero
      have hstay : (pieces (line.drop 1023)).foldl loadLine (loadLine st (line.take 1023)) =
          loadLine st (line.take 1023) :=
        foldl_loadLine_eq_self (by rw [hstate]; exact hline)
      rw [List.flatMap_cons, List.foldl_append, pieces_of_ne_nil hne, List.foldl_cons, hstay,
        ih hrest _ (by rw [hstate]; exact hquiet), mem_services_loadLine, hstate, sectioned,
        List.exists_mem_cons_iff, entryOf_sectionAfter st.1 hzero, or_assoc]

/-- A line of a section is a line. -/
theorem mem_of_mem_sectioned {state : State} {lines : List CString} {l : State × CString}
    (h : l ∈ sectioned state lines) : l.2 ∈ lines := by
  induction lines generalizing state with
  | nil => cases h
  | cons line lines ih =>
      rcases List.mem_cons.mp h with rfl | hmem
      · exact List.mem_cons_self
      · exact List.mem_cons_of_mem _ (ih hmem)

/-- A line is legible if its later pieces have no effect and its text has nothing to trim. -/
theorem legible_iff {state : State} {line : CString} (h : 0 ∉ line) :
    Legible state line ↔ (∀ piece ∈ (pieces line).tail, ¬ Becomes state piece) ∧
      (state ≠ .stateIgnore → line.head? ≠ some 91 →
        (lineText line).rdropWhile isTrimmed = lineText line) := by
  have hpiece (piece : CString) (hp : piece ∈ (pieces line).tail) :
      ¬ Becomes state piece ↔ piece.head? ≠ some 91 ∧
        (state ≠ .stateIgnore → ∀ c ∈ piece.takeWhile (· ≠ 35), c ≤ 0x20 ∨ 0x80 ≤ c) :=
    not_becomes_iff fun hzero => h (mem_of_mem_pieces (List.mem_of_mem_tail hp) hzero)
  rw [rdropWhile_lineText]
  constructor
  · intro hlegible
    refine ⟨fun piece hp => (hpiece piece hp).mpr ⟨hlegible.header piece hp, ?_⟩, hlegible.ascii⟩
    exact fun hstate => hlegible.blank hstate piece hp
  · intro ⟨hquiet, hascii⟩
    exact ⟨fun piece hp => ((hpiece piece hp).mp (hquiet piece hp)).1,
      fun hstate piece hp => ((hpiece piece hp).mp (hquiet piece hp)).2 hstate, hascii⟩

/-- The first piece of a line gives the entry of the line, if its text is kept. -/
theorem entryOf_piece {state : State} {line : CString} (h : 0 ∉ line)
    (hquiet : ∀ piece ∈ (pieces line).tail, ¬ Becomes state piece)
    (hkept : state ≠ .stateIgnore → line.head? ≠ some 91 →
      (lineText line).rdropWhile isTrimmed = lineText line) :
    entryOf state (trimLine (line.take 1023)) = entryOf state (lineText line) := by
  by_cases hstate : state = .stateIgnore
  · rw [entryOf_eq_none.mpr (Or.inr (Or.inr hstate)), entryOf_eq_none.mpr (Or.inr (Or.inr hstate))]
  · by_cases hhead : line.head? = some 91
    · have htrim : (trimLine (line.take 1023)).head? = some 91 := by
        rw [head?_trimLine (fun hmem => h (List.mem_of_mem_take hmem)), List.head?_take,
          if_neg (by decide), hhead]
      have htext : (lineText line).head? = some 91 := (head?_rdropWhile (by decide) line).mpr hhead
      rw [entryOf_eq_none.mpr (Or.inr (Or.inl htrim)), entryOf_eq_none.mpr (Or.inr (Or.inl htext))]
    · have hblank : ∀ piece ∈ (pieces line).tail, ∀ c ∈ piece.takeWhile (· ≠ 35),
          c ≤ 0x20 ∨ 0x80 ≤ c := by
        intro piece hp
        have hzero : 0 ∉ piece := fun hmem => h (mem_of_mem_pieces (List.mem_of_mem_tail hp) hmem)
        exact ((not_becomes_iff hzero).mp (hquiet piece hp)).2 hstate
      rw [trimLine_take h hblank, hkept hstate hhead]

/-- The entries of a text are those of its lines. -/
theorem mem_entries {text : CString} {state : State} {name : CString} :
    (state, name) ∈ entries text ↔ ∃ l ∈ sectioned .stateIgnore (linesOf text),
      entryOf l.1 (lineText l.2) = some (state, name) := by
  rw [entries, List.mem_filterMap]

/-- The texts of the first pieces are trimmed. -/
theorem rdropWhile_trimLine (line : CString) :
    (trimLine line).rdropWhile isTrimmed = trimLine line := List.rdropWhile_idempotent _ _

/-- The sets are filled with the entries of their sections, and no fragment of a line becomes
anything, exactly when all lines can be read as they stand. -/
theorem loadsLines_iff {text : CString} (h : 0 ∉ text) :
    LoadsLines text ↔ ∀ l ∈ sectioned .stateIgnore (linesOf text), Legible l.1 l.2 := by
  have hlines : ∀ line ∈ linesOf text, line ≠ [] ∧ 0 ∉ line := by
    intro line hline
    obtain ⟨hne, hmem⟩ := forall_mem_linesOf text line hline
    exact ⟨hne, fun hzero => h (hmem 0 hzero)⟩
  have hzero {l : State × CString} (hl : l ∈ sectioned .stateIgnore (linesOf text)) : 0 ∉ l.2 :=
    (hlines l.2 (mem_of_mem_sectioned hl)).2
  have hservices (hquiet : ∀ l ∈ sectioned .stateIgnore (linesOf text),
      ∀ piece ∈ (pieces l.2).tail, ¬ Becomes l.1 piece) (state : State) (name : CString) :
      name ∈ (load {} (some text)).services state ↔
        ∃ l ∈ sectioned .stateIgnore (linesOf text),
          entryOf l.1 (trimLine (l.2.take 1023)) = some (state, name) := by
    have hempty : name ∉ ({} : ConfigFile).services state := by
      cases state <;> exact List.not_mem_nil
    rw [load, loadLoop_eq, mem_services_foldl hlines _ hquiet, or_iff_right hempty]
  constructor
  · intro hloads l hl
    have hquiet := (forall_fragments hlines _).mp hloads.whole
    refine (legible_iff (hzero hl)).mpr ⟨hquiet l hl, fun hstate hhead => ?_⟩
    by_cases htext : lineText l.2 = []
    · rw [htext]
      rfl
    · have hentry : entryOf l.1 (lineText l.2) = some (l.1, lineText l.2) :=
        entryOf_eq_some.mpr ⟨⟨htext, fun h91 =>
          hhead ((head?_rdropWhile (by decide) l.2).mp h91), hstate⟩, rfl, rfl⟩
      have hmem := (hloads.services_iff l.1 (lineText l.2)).mpr (mem_entries.mpr ⟨l, hl, hentry⟩)
      obtain ⟨l', -, hl'⟩ := (hservices hquiet _ _).mp hmem
      rw [← (entryOf_eq_some.mp hl').2.2, rdropWhile_trimLine]
  · intro hlegible
    have hparts {l : State × CString} (hl : l ∈ sectioned .stateIgnore (linesOf text)) :=
      (legible_iff (hzero hl)).mp (hlegible l hl)
    have hquiet : ∀ l ∈ sectioned .stateIgnore (linesOf text),
        ∀ piece ∈ (pieces l.2).tail, ¬ Becomes l.1 piece := fun l hl => (hparts hl).1
    refine ⟨fun state name => ?_, (forall_fragments hlines _).mpr hquiet⟩
    rw [hservices hquiet, mem_entries]
    refine exists_congr fun l => and_congr_right fun hl => ?_
    rw [entryOf_piece (hzero hl) (hparts hl).1 (hparts hl).2]

/-- A file with a section and one line that is short. -/
theorem loadsLines_iff_short :
    LoadsLines [91, 76, 79, 67, 65, 76, 93, 10, 97, 32, 35, 98, 10] ↔
      ∀ l ∈ sectioned .stateIgnore (linesOf [91, 76, 79, 67, 65, 76, 93, 10, 97, 32, 35, 98, 10]),
        Legible l.1 l.2 :=
  loadsLines_iff (by decide)

/-- A comment of 1026 characters, which ends in `abc`. -/
def longComment : CString := List.replicate 1023 35 ++ [97, 98, 99, 10]

/-- The end of a long comment becomes a local service. -/
theorem not_loadsLines_comment : ¬ ∀ text : CString, 0 ∉ text → LoadsLines text := by
  intro h
  have hlines : linesOf ([91, 76, 79, 67, 65, 76, 93, 10] ++ longComment) =
      [[91, 76, 79, 67, 65, 76, 93, 10], longComment] := by decide +kernel
  have hwhole := (h ([91, 76, 79, 67, 65, 76, 93, 10] ++ longComment) (by decide +kernel)).whole
  rw [hlines, forall_fragments (by decide +kernel)] at hwhole
  have hfragment := hwhole (.stateLocal, longComment) (by decide +kernel) [97, 98, 99, 10]
  have hdrop : longComment.drop 1023 = [97, 98, 99, 10] := List.drop_left' List.length_replicate
  have hpieces : (pieces longComment).tail = pieces [97, 98, 99, 10] := by
    rw [pieces_of_ne_nil (by decide), List.tail_cons, hdrop]
  refine hfragment ?_ (Or.inr (by decide))
  rw [show (pieces (_, longComment).2).tail = _ from hpieces,
    pieces_of_ne_nil (List.cons_ne_nil _ _)]
  exact List.mem_cons_self

end ConfigFile

/-! ## The broker -/

/-- The broker takes its sets from the file. -/
def Config.load (cfg : Config) (text : CString) : Config :=
  let file := ConfigFile.load {} (some text)
  { cfg with
    mLocalServices := file.mLocalServices
    mGlobalServices := file.mGlobalServices
    mForwardServices := file.mForwardServices }

/-- What is local after a file was loaded as it should be: what is not global if there is a global
entry, and the local entries otherwise. -/
theorem Config.isLocalService_load {text : CString} (h : ConfigFile.LoadsLines text) (cfg : Config)
    (name : CString) :
    (cfg.load text).isLocalService name = true ↔
      ((∃ service, (.stateGlobal, service) ∈ ConfigFile.entries text) ∧
          (.stateGlobal, name) ∉ ConfigFile.entries text) ∨
        ((∀ service, (.stateGlobal, service) ∉ ConfigFile.entries text) ∧
          (.stateLocal, name) ∈ ConfigFile.entries text) := by
  simp only [← h.services_iff]
  change (if (ConfigFile.load {} (some text)).mGlobalServices ≠ [] then _ else _) = true ↔ _
  by_cases hnil : (ConfigFile.load {} (some text)).mGlobalServices = []
  · have hnone (service : CString) :
        service ∉ (ConfigFile.load {} (some text)).services .stateGlobal := by
      rw [ConfigFile.services, hnil]
      exact List.not_mem_nil
    rw [if_neg (not_not.mpr hnil), List.contains_iff_mem]
    exact ⟨fun hmem => Or.inr ⟨hnone, hmem⟩, fun hor => hor.elim
      (fun ⟨⟨service, hmem⟩, _⟩ => absurd hmem (hnone service)) And.right⟩
  · have hsome : ∃ service, service ∈ (ConfigFile.load {} (some text)).services .stateGlobal :=
      List.exists_mem_of_ne_nil _ hnil
    rw [if_pos hnil, Bool.not_eq_true', List.contains_eq_mem, decide_eq_false_iff_not]
    exact ⟨fun hnot => Or.inl ⟨hsome, hnot⟩, fun hor => hor.elim And.right
      fun ⟨hnone, _⟩ => absurd hsome.choose_spec (hnone _)⟩

end Dsi
