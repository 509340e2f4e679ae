import Dsi.Lib.LinkedList
import Dsi.Lib.Partial

/-!
# Dsi.Common.Slist

`Slist`, the intrusive list: a circle of hooks that starts and ends at the hook
`mFirst` of the list itself.  The elements are not copied, so a hook goes with its
element, and an operation on a hook that is no more breaks off.
-/

namespace Dsi

/-- The address of a hook: the list's own, or that of an element. -/
inductive SlistNode (α : Type) where
  | mFirst
  | element (a : α)
  deriving DecidableEq, Repr

/-- What an operation of a list breaks off with: a hook is accessed that is no more or
null, an assertion fails, and the circle does not come back to its start. -/
inductive SlistFault where
  | badAccess
  | assertion
  | endless
  deriving DecidableEq, Repr

/-- The hooks in memory with their `mNext`; an element that is not hooked has null
there. -/
abbrev SlistHooks (α : Type) := SlistNode α → Option (Option (SlistNode α))

namespace Slist

variable {α : Type}

/-- An empty list, and no element in memory. -/
def hooks : SlistHooks α
  | .mFirst => some (some .mFirst)
  | .element _ => none

/-- The link of a hook. -/
def link (h : SlistHooks α) (n : SlistNode α) : Option (SlistNode α) := (h n).join

/-- Is the element hooked into the list? -/
def isHooked (h : SlistHooks α) (a : α) : Bool := (link h (.element a)).isSome

theorem isHooked_congr {h h' : SlistHooks α} {a : α} (ha : h' (.element a) = h (.element a)) :
    isHooked h' a = isHooked h a := by
  rw [isHooked, link, ha, isHooked, link]

theorem isHooked_eq_false {h : SlistHooks α} {a : α} (ha : (h (.element a)).join = none) :
    isHooked h a = false := by
  rw [isHooked, link, ha]
  rfl

/-- An element that is hooked is in memory. -/
theorem isSome_of_isHooked {h : SlistHooks α} {a : α} (ha : isHooked h a = true) :
    (h (.element a)).isSome = true := by
  rw [isHooked, link] at ha
  cases hm : h (.element a) with
  | none => rw [hm] at ha; exact absurd ha Bool.false_ne_true
  | some o => rfl

/-- `next`. -/
def next (h : SlistHooks α) (n : SlistNode α) : Except SlistFault (SlistNode α) :=
  match link h n with
  | some m => .ok m
  | none => .error .badAccess

section Operations

variable [DecidableEq α]

/-- `hookAfter`. -/
def hookAfter (x after : SlistNode α) (h : SlistHooks α) : Except SlistFault (SlistHooks α) :=
  match h after, h x with
  | some n, some _ =>
      .ok (Function.update (Function.update h x (some n)) after (some (some x)))
  | _, _ => .error .badAccess

/-- `unhookNext`. -/
def unhookNext (n : SlistNode α) (h : SlistHooks α) : Except SlistFault (SlistHooks α) :=
  match next h n with
  | .error e => .error e
  | .ok toUnhook =>
      match next h toUnhook with
      | .error e => .error e
      | .ok m =>
          .ok (Function.update (Function.update h n (some (some m))) toUnhook (some none))

/-- `push_front`. -/
def pushFront (a : α) (h : SlistHooks α) : Except SlistFault (SlistHooks α) :=
  hookAfter (.element a) .mFirst h

/-- The loop of `erase`, with an iterator and the number of steps it may take: the hook
before `w` is looked for. -/
def eraseLoop (w : SlistNode α) (h : SlistHooks α) :
    Nat → SlistNode α → Except SlistFault (SlistNode α × SlistHooks α)
  | 0, _ => .error .endless
  | fuel + 1, iter =>
      if iter = .mFirst then .error .assertion
      else
        match next h iter with
        | .error e => .error e
        | .ok tmp =>
            if tmp = w then
              match unhookNext iter h with
              | .error e => .error e
              | .ok h => (next h iter).map (·, h)
            else eraseLoop w h fuel tmp

/-- `erase`: unhooks `w` and returns what was behind it. -/
def erase (fuel : Nat) (w : SlistNode α) (h : SlistHooks α) :
    Except SlistFault (SlistNode α × SlistHooks α) :=
  match next h .mFirst with
  | .error e => .error e
  | .ok begin =>
      if w = begin then
        if begin = .mFirst then .error .assertion
        else
          match unhookNext .mFirst h with
          | .error e => .error e
          | .ok h => (next h .mFirst).map (·, h)
      else eraseLoop w h fuel begin

/-- The loop of `remove_if`. -/
def removeIfLoop (pred : α → Bool) (fuel : Nat) :
    Nat → SlistNode α → SlistHooks α → Except SlistFault (SlistHooks α)
  | 0, _, _ => .error .endless
  | _ + 1, .mFirst, h => .ok h
  | steps + 1, .element a, h =>
      if pred a then
        match erase fuel (.element a) h with
        | .error e => .error e
        | .ok (iter, h) => removeIfLoop pred fuel steps iter h
      else
        match next h (.element a) with
        | .error e => .error e
        | .ok iter => removeIfLoop pred fuel steps iter h

/-- `remove_if`. -/
def removeIf (pred : α → Bool) (fuel : Nat) (h : SlistHooks α) :
    Except SlistFault (SlistHooks α) :=
  match next h .mFirst with
  | .error e => .error e
  | .ok begin => removeIfLoop pred fuel fuel begin h

/-- `pop_front`. -/
def popFront (h : SlistHooks α) : Except SlistFault (SlistHooks α) :=
  match next h .mFirst with
  | .error e => .error e
  | .ok begin => if begin = .mFirst then .error .assertion else unhookNext .mFirst h

/-- `insert_after`. -/
def insertAfter (w : SlistNode α) (a : α) (h : SlistHooks α) :
    Except SlistFault (SlistNode α × SlistHooks α) :=
  (hookAfter (.element a) w h).map (.element a, ·)

/-- The loop of `insert`: the hook before `w` is looked for, and the last one will do. -/
def insertLoop (w : SlistNode α) (a : α) (h : SlistHooks α) :
    Nat → SlistNode α → Except SlistFault (SlistNode α × SlistHooks α)
  | 0, _ => .error .endless
  | fuel + 1, iter =>
      if iter = .mFirst then .error .assertion
      else
        match next h iter with
        | .error e => .error e
        | .ok tmp =>
            if tmp = w ∨ tmp = .mFirst then insertAfter iter a h
            else insertLoop w a h fuel tmp

/-- `insert`. -/
def insert (fuel : Nat) (w : SlistNode α) (a : α) (h : SlistHooks α) :
    Except SlistFault (SlistNode α × SlistHooks α) :=
  match next h .mFirst with
  | .error e => .error e
  | .ok begin =>
      if w = begin then (pushFront a h).map (.element a, ·)
      else insertLoop w a h fuel begin

/-- `clear`.  The hooks of the elements stay as they are. -/
def clear (h : SlistHooks α) : SlistHooks α := Function.update h .mFirst (some (some .mFirst))

/-- The loop of `reverse`, with the element of the old list that comes next. -/
def reverseLoop : Nat → SlistNode α → SlistHooks α → Except SlistFault (SlistHooks α)
  | 0, _, _ => .error .endless
  | _ + 1, .mFirst, h => .ok h
  | fuel + 1, .element data, h =>
      match next h (.element data) with
      | .error e => .error e
      | .ok n =>
          match pushFront data h with
          | .error e => .error e
          | .ok h => reverseLoop fuel n h

/-- `reverse`. -/
def reverse (fuel : Nat) (h : SlistHooks α) : Except SlistFault (SlistHooks α) :=
  match next h .mFirst with
  | .error e => .error e
  | .ok begin => if begin = .mFirst then .ok h else reverseLoop fuel begin (clear h)

/-- The loop of `distance`. -/
def distanceLoop (h : SlistHooks α) : Nat → SlistNode α → Nat → Except SlistFault Nat
  | 0, _, _ => .error .endless
  | fuel + 1, first, ret =>
      if first = .mFirst then .ok ret
      else
        match next h first with
        | .error e => .error e
        | .ok n => distanceLoop h fuel n (ret + 1)

/-- `size`. -/
def size (fuel : Nat) (h : SlistHooks α) : Except SlistFault Nat :=
  match next h .mFirst with
  | .error e => .error e
  | .ok begin => distanceLoop h fuel begin 0

end Operations

/-! ## What the list stands for -/

/-- The circle leads from `mFirst` through the elements `l`, each once, and back. -/
structure Represents (h : SlistHooks α) (l : List α) : Prop where
  circle : Linked (link h) .mFirst (.mFirst :: l.map .element) .mFirst
  nodup : l.Nodup

/-- What an iterator shows with the elements `l` still before it. -/
def headNode : List α → SlistNode α
  | [] => .mFirst
  | a :: _ => .element a

theorem nodup_nodes {l : List α} (h : l.Nodup) :
    (SlistNode.mFirst :: l.map SlistNode.element).Nodup := by
  refine List.nodup_cons.mpr ⟨by simp, h.map fun a b hab => ?_⟩
  cases hab
  rfl

theorem next_eq {h : SlistHooks α} {pre : List (SlistNode α)} {d : SlistNode α} {l : List α}
    (hc : Linked (link h) .mFirst (pre ++ d :: l.map .element) .mFirst) :
    next h d = .ok (headNode l) := by
  obtain ⟨n, hn, hrest⟩ := hc.behind
  have hhead : n = headNode l := by
    cases l with
    | nil => exact hrest
    | cons a l => exact hrest.head
  rw [next, hn, hhead]

theorem represents_hooks : Represents (hooks : SlistHooks α) [] where
  circle := ⟨rfl, .mFirst, rfl, rfl⟩
  nodup := List.nodup_nil

namespace Represents

variable {h : SlistHooks α} {l l' : List α} {a : α}

/-- The elements of the list are hooked. -/
theorem isHooked (hr : Represents h l) (ha : a ∈ l) : isHooked h a = true :=
  hr.circle.isSome (List.mem_cons_of_mem _ (List.mem_map_of_mem ha))

/-- What is put into the list between two parts of it occurs once. -/
theorem nodup_insert (hr : Represents h (l ++ l')) (ha : a ∉ l ++ l') : (l ++ a :: l').Nodup :=
  List.perm_middle.nodup_iff.mpr (List.nodup_cons.mpr ⟨ha, hr.nodup⟩)

/-- The list depends on the hooks of its own elements only. -/
theorem congr (hr : Represents h l) {h' : SlistHooks α} (hfirst : h' .mFirst = h .mFirst)
    (helement : ∀ a ∈ l, h' (.element a) = h (.element a)) : Represents h' l where
  circle := by
    refine hr.circle.congr fun n hn => ?_
    rcases List.mem_cons.mp hn with rfl | hn
    · rw [link, hfirst, link]
    · obtain ⟨a, ha, rfl⟩ := List.mem_map.mp hn
      rw [link, helement a ha, link]
  nodup := hr.nodup

theorem next_mFirst (hr : Represents h l) : next h .mFirst = .ok (headNode l) :=
  @next_eq _ h [] _ l hr.circle

theorem next_element (hr : Represents h (l ++ a :: l')) :
    next h (.element a) = .ok (headNode l') := by
  have hc := hr.circle
  rw [List.map_append, List.map_cons, ← List.cons_append] at hc
  exact next_eq hc

end Represents

/-! ## What the operations do -/

variable [DecidableEq α]

@[simp] theorem link_update (h : SlistHooks α) (n : SlistNode α)
    (o : Option (Option (SlistNode α))) :
    link (Function.update h n o) = Function.update (link h) n o.join := by
  funext m
  rw [link, Function.update_apply, Function.update_apply]
  split <;> rfl

/-- `unhookNext` takes the element behind the hook out of the circle. -/
theorem unhookNext_eq {h : SlistHooks α} {pre : List (SlistNode α)} {d : SlistNode α} {a : α}
    {l : List α}
    (hc : Linked (link h) .mFirst (pre ++ d :: .element a :: l.map .element) .mFirst)
    (hnodup : (pre ++ d :: SlistNode.element a :: l.map SlistNode.element).Nodup) :
    ∃ h', unhookNext d h = .ok h' ∧
      Linked (link h') .mFirst (pre ++ d :: l.map .element) .mFirst ∧
      h' (.element a) = some none ∧
      ∀ n, n ≠ d → n ≠ .element a → h' n = h n := by
  have hfirst : next h d = .ok (.element a) := next_eq (l := a :: l) hc
  have hsecond : next h (.element a) = .ok (headNode l) := by
    rw [List.append_cons] at hc
    exact next_eq hc
  have hlink : link h (.element a) = some (headNode l) := by
    rw [next] at hsecond
    split at hsecond
    · next m hm => rw [hm, Except.ok.inj hsecond]
    · cases hsecond
  refine ⟨Function.update (Function.update h d (some (some (headNode l)))) (.element a)
    (some none), ?_, ?_, Function.update_self .., ?_⟩
  · rw [unhookNext, hfirst]
    dsimp only
    rw [hsecond]
  · rw [link_update, link_update, Option.join_some, ← hlink]
    exact hc.unhook hnodup _
  · intro n hd ha
    rw [Function.update_of_ne ha, Function.update_of_ne hd]

/-- `hookAfter` puts an element that is not in the circle behind the hook. -/
theorem hookAfter_eq {h : SlistHooks α} {pre : List (SlistNode α)} {d : SlistNode α} {a : α}
    {l : List α} (hc : Linked (link h) .mFirst (pre ++ d :: l.map .element) .mFirst)
    (hnodup : (pre ++ d :: l.map SlistNode.element).Nodup)
    (ha : .element a ∉ pre ++ d :: l.map SlistNode.element) (hlive : (h (.element a)).isSome) :
    ∃ h', hookAfter (.element a) d h = .ok h' ∧
      Linked (link h') .mFirst (pre ++ d :: .element a :: l.map .element) .mFirst ∧
      ∀ n, n ≠ d → n ≠ .element a → h' n = h n := by
  have hd : d ∈ pre ++ d :: l.map SlistNode.element :=
    List.mem_append_right _ (List.mem_cons_self ..)
  have hsome : (h d).isSome := by
    have hlink := hc.isSome hd
    rw [link] at hlink
    cases hm : h d with
    | none => rw [hm] at hlink; exact hlink
    | some m => rfl
  obtain ⟨m, hm⟩ := Option.isSome_iff_exists.mp hsome
  obtain ⟨o, ho⟩ := Option.isSome_iff_exists.mp hlive
  refine ⟨Function.update (Function.update h (.element a) (some m)) d (some (some (.element a))),
    by rw [hookAfter, hm, ho], ?_, ?_⟩
  · have hlink : link h d = (some m : Option (Option (SlistNode α))).join := by
      rw [link, hm]
    rw [link_update, link_update, ← hlink]
    exact hc.hook hnodup ha
  · intro n hn ha
    rw [Function.update_of_ne hn, Function.update_of_ne ha]

/-- What is no more cannot be put into a list. -/
theorem pushFront_of_dead {h : SlistHooks α} {a : α} (ha : h (.element a) = none) :
    pushFront a h = .error .badAccess := by
  rw [pushFront, hookAfter, ha]
  split
  · next hsome => cases hsome
  · rfl

namespace Represents

variable {h : SlistHooks α} {l l' : List α} {a : α}

/-- `push_front` puts an element that is not in the list before the others. -/
theorem pushFront_eq (hr : Represents h l) (ha : a ∉ l) (hlive : (h (.element a)).isSome) :
    ∃ h', pushFront a h = .ok h' ∧ Represents h' (a :: l) ∧
      ∀ b, b ≠ a → h' (.element b) = h (.element b) := by
  have hnot : .element a ∉ [] ++ SlistNode.mFirst :: l.map SlistNode.element := by simpa using ha
  obtain ⟨h', hhook, hc, hother⟩ := hookAfter_eq hr.circle (nodup_nodes hr.nodup) hnot hlive
  refine ⟨h', hhook, ⟨hc, List.nodup_cons.mpr ⟨ha, hr.nodup⟩⟩, fun b hb => hother _ (by simp) ?_⟩
  simpa using hb

/-- The loop of `erase`, at a hook `d` behind which the elements `l` and then `a` come. -/
theorem eraseLoop_eq {pre : List (SlistNode α)} {d : SlistNode α} {fuel : Nat}
    (hc : Linked (link h) .mFirst (pre ++ d :: (l ++ a :: l').map .element) .mFirst)
    (hnodup : (pre ++ d :: (l ++ a :: l').map SlistNode.element).Nodup) (hd : d ≠ .mFirst)
    (hfuel : l.length < fuel) :
    ∃ h', eraseLoop (.element a) h fuel d = .ok (headNode l', h') ∧
      Linked (link h') .mFirst (pre ++ d :: (l ++ l').map .element) .mFirst ∧
      h' (.element a) = some none ∧
      ∀ n, n ∉ pre ++ d :: (l ++ a :: l').map SlistNode.element → h' n = h n := by
  induction l generalizing pre d fuel with
  | nil =>
      obtain ⟨fuel, rfl⟩ : ∃ f, fuel = f + 1 := ⟨fuel - 1, by omega⟩
      obtain ⟨h', hunhook, hc', hself, hother⟩ := unhookNext_eq hc hnodup
      refine ⟨h', ?_, hc', hself, fun n hn => hother n ?_ ?_⟩
      · rw [eraseLoop, if_neg hd, next_eq (l := a :: l') hc]
        dsimp only
        rw [headNode, if_pos rfl, hunhook]
        dsimp only
        rw [next_eq hc']
        rfl
      · rintro rfl
        exact hn (List.mem_append_right _ (List.mem_cons_self ..))
      · rintro rfl
        exact hn (List.mem_append_right _ (List.mem_cons_of_mem _ (List.mem_cons_self ..)))
  | cons b l ih =>
      obtain ⟨fuel, rfl⟩ : ∃ f, fuel = f + 1 := ⟨fuel - 1, by omega⟩
      have hne : SlistNode.element b ≠ .element a := by
        intro hba
        have hbehind := (List.nodup_append.mp hnodup).2.1
        rw [List.cons_append, List.map_cons, hba, List.nodup_cons, List.nodup_cons] at hbehind
        exact hbehind.2.1 (List.mem_map_of_mem (List.mem_append_right _ (List.mem_cons_self ..)))
      have hstep : eraseLoop (.element a) h (fuel + 1) d =
          eraseLoop (.element a) h fuel (.element b) := by
        rw [eraseLoop, if_neg hd, next_eq (l := b :: l ++ a :: l') hc]
        dsimp only
        rw [List.cons_append, headNode, if_neg hne]
      rw [List.cons_append, List.map_cons, List.append_cons] at hc hnodup
      have hlt : l.length < fuel := Nat.lt_of_succ_lt_succ hfuel
      obtain ⟨h', hloop, hc', hself, hother⟩ := ih hc hnodup (by simp) hlt
      refine ⟨h', hstep.trans hloop, ?_, hself, ?_⟩
      · rw [List.cons_append, List.map_cons, List.append_cons]
        exact hc'
      · rw [List.cons_append, List.map_cons, List.append_cons]
        exact hother

/-- `erase` takes one element out of the list and returns what was behind it. -/
theorem erase_eq (hr : Represents h (l ++ a :: l')) {fuel : Nat} (hfuel : l.length ≤ fuel) :
    ∃ h', erase fuel (.element a) h = .ok (headNode l', h') ∧ Represents h' (l ++ l') ∧
      h' (.element a) = some none ∧
      ∀ b, b ∉ l ++ a :: l' → h' (.element b) = h (.element b) := by
  have hnodup : (l ++ l').Nodup := by
    have hperm := List.perm_middle.nodup hr.nodup
    exact (List.nodup_cons.mp hperm).2
  have hbegin := hr.next_mFirst
  cases l with
  | nil =>
      obtain ⟨h', hunhook, hc', hself, hother⟩ :=
        @unhookNext_eq _ _ h [] _ a l' hr.circle (nodup_nodes hr.nodup)
      refine ⟨h', ?_, ⟨hc', hnodup⟩, hself, fun b hb => hother _ (by simp) ?_⟩
      · rw [erase, hbegin]
        dsimp only
        rw [List.nil_append, headNode, if_pos rfl, if_neg (by simp), hunhook]
        dsimp only
        rw [@next_eq _ h' [] _ l' hc']
        rfl
      · rintro ⟨⟩
        exact hb (List.mem_cons_self ..)
  | cons c l =>
      have hne : SlistNode.element a ≠ .element c := by
        rintro ⟨⟩
        exact (List.nodup_cons.mp hr.nodup).1
          (List.mem_append_right _ (List.mem_cons_self ..))
      have hc : Linked (link h) .mFirst
          ([.mFirst] ++ .element c :: (l ++ a :: l').map .element) .mFirst := hr.circle
      have hlt : l.length < fuel := Nat.lt_of_succ_le hfuel
      obtain ⟨h', hloop, hc', hself, hother⟩ :=
        eraseLoop_eq hc (nodup_nodes hr.nodup) (by simp) hlt
      refine ⟨h', ?_, ⟨hc', hnodup⟩, hself, fun b hb => hother _ ?_⟩
      · rw [erase, hbegin]
        dsimp only
        rw [List.cons_append, headNode, if_neg hne]
        exact hloop
      · intro hmem
        refine hb ?_
        rw [List.singleton_append, ← List.map_cons (f := SlistNode.element)] at hmem
        rcases List.mem_cons.mp hmem with hmem | hmem
        · cases hmem
        · obtain ⟨x, hx, ⟨⟩⟩ := List.mem_map.mp hmem
          exact hx

/-- `pop_front` takes the first element out of the list. -/
theorem popFront_eq (hr : Represents h (a :: l)) :
    ∃ h', popFront h = .ok h' ∧ Represents h' l ∧ h' (.element a) = some none ∧
      ∀ b, b ≠ a → h' (.element b) = h (.element b) := by
  obtain ⟨h', hunhook, hc, hself, hother⟩ :=
    @unhookNext_eq _ _ h [] _ a l hr.circle (nodup_nodes hr.nodup)
  refine ⟨h', ?_, ⟨hc, (List.nodup_cons.mp hr.nodup).2⟩, hself, fun b hb => hother _ (by simp) ?_⟩
  · rw [popFront, hr.next_mFirst]
    dsimp only
    rw [headNode, if_neg (by simp)]
    exact hunhook
  · simpa using hb

/-- `insert_after`. -/
theorem insertAfter_eq {b : α} (hr : Represents h (l ++ b :: l')) (ha : a ∉ l ++ b :: l')
    (hlive : (h (.element a)).isSome) :
    ∃ h', insertAfter (.element b) a h = .ok (.element a, h') ∧
      Represents h' (l ++ b :: a :: l') ∧
      ∀ x, x ∉ l ++ b :: a :: l' → h' (.element x) = h (.element x) := by
  have hc := hr.circle
  have hnodup := nodup_nodes hr.nodup
  have hnot : .element a ∉ SlistNode.mFirst :: (l ++ b :: l').map SlistNode.element := by
    simpa using ha
  rw [List.map_append, List.map_cons, ← List.cons_append] at hc hnodup hnot
  obtain ⟨h', hhook, hc', hother⟩ := hookAfter_eq hc hnodup hnot hlive
  rw [List.append_cons] at hr ha
  have hnodup' := hr.nodup_insert ha
  rw [List.append_assoc, List.singleton_append] at hnodup'
  refine ⟨h', ?_, ⟨?_, hnodup'⟩, fun x hx => hother _ ?_ ?_⟩
  · rw [insertAfter, hhook]
    rfl
  · rw [List.map_append, List.map_cons, List.map_cons]
    exact hc'
  · rintro ⟨⟩
    exact hx (List.mem_append_right _ (List.mem_cons_self ..))
  · rintro ⟨⟩
    exact hx (List.mem_append_right _ (List.mem_cons_of_mem _ (List.mem_cons_self ..)))

/-- The loop of `insert`, at an element `d` behind which the elements `l` come and then the
position. -/
theorem insertLoop_eq {p : List α} {d : α} {fuel : Nat} (hr : Represents h (p ++ d :: (l ++ l')))
    (ha : a ∉ p ++ d :: (l ++ l')) (hlive : (h (.element a)).isSome) (hfuel : l.length < fuel) :
    ∃ h', insertLoop (headNode l') a h fuel (.element d) = .ok (.element a, h') ∧
      Represents h' (p ++ d :: (l ++ a :: l')) ∧
      ∀ x, x ∉ p ++ d :: (l ++ a :: l') → h' (.element x) = h (.element x) := by
  induction l generalizing p d fuel with
  | nil =>
      obtain ⟨fuel, rfl⟩ : ∃ f, fuel = f + 1 := ⟨fuel - 1, by omega⟩
      rw [insertLoop, if_neg (by simp), hr.next_element]
      dsimp only
      rw [List.nil_append, if_pos (Or.inl rfl)]
      exact hr.insertAfter_eq ha hlive
  | cons b l ih =>
      obtain ⟨fuel, rfl⟩ : ∃ f, fuel = f + 1 := ⟨fuel - 1, by omega⟩
      have hne : SlistNode.element b ≠ headNode l' := by
        intro hb
        cases l' with
        | nil => cases hb
        | cons c l' =>
            cases hb
            have hbehind := (List.nodup_append.mp hr.nodup).2.1
            rw [List.cons_append, List.nodup_cons, List.nodup_cons] at hbehind
            exact hbehind.2.1 (List.mem_append_right _ (List.mem_cons_self ..))
      have hstep : insertLoop (headNode l') a h (fuel + 1) (.element d) =
          insertLoop (headNode l') a h fuel (.element b) := by
        rw [insertLoop, if_neg (by simp), hr.next_element]
        dsimp only
        rw [List.cons_append, headNode, if_neg (by simp [hne])]
      rw [hstep, List.cons_append, List.append_cons p]
      rw [List.cons_append, List.append_cons p] at hr ha
      exact ih hr ha (Nat.lt_of_succ_lt_succ hfuel)

/-- `insert` puts an element before the position. -/
theorem insert_eq {fuel : Nat} (hr : Represents h (l ++ l')) (ha : a ∉ l ++ l')
    (hlive : (h (.element a)).isSome) (hfuel : l.length ≤ fuel) :
    ∃ h', insert fuel (headNode l') a h = .ok (.element a, h') ∧
      Represents h' (l ++ a :: l') ∧
      ∀ x, x ∉ l ++ a :: l' → h' (.element x) = h (.element x) := by
  rw [insert, hr.next_mFirst]
  dsimp only
  cases l with
  | nil =>
      obtain ⟨h', hpush, hr', hother⟩ := hr.pushFront_eq ha hlive
      refine ⟨h', ?_, hr', fun x hx => hother x fun hxa => hx (hxa ▸ List.mem_cons_self ..)⟩
      rw [List.nil_append, if_pos rfl, hpush]
      rfl
  | cons c l =>
      have hne : headNode l' ≠ .element c := by
        intro hc
        cases l' with
        | nil => cases hc
        | cons b l' =>
            cases hc
            exact (List.nodup_cons.mp hr.nodup).1
              (List.mem_append_right _ (List.mem_cons_self ..))
      rw [List.cons_append, headNode, if_neg hne]
      exact insertLoop_eq (p := []) hr ha hlive hfuel

/-- `clear`. -/
theorem clear_eq (h : SlistHooks α) : Represents (clear h) [] where
  circle := ⟨rfl, .mFirst, by rw [clear, link_update, Function.update_self]; rfl, rfl⟩
  nodup := List.nodup_nil

/-- The loop of `reverse`, with the list `l` so far and the elements `l'` of the old one that are
still to come. -/
theorem reverseLoop_eq {fuel : Nat} (hr : Represents h l)
    (hold : Linked (link h) (headNode l') (l'.map .element) .mFirst) (hnodup : (l ++ l').Nodup)
    (hfuel : l'.length < fuel) :
    ∃ h', reverseLoop fuel (headNode l') h = .ok h' ∧ Represents h' (l'.reverse ++ l) ∧
      ∀ x, x ∉ l' → h' (.element x) = h (.element x) := by
  induction l' generalizing l h fuel with
  | nil =>
      obtain ⟨fuel, rfl⟩ : ∃ f, fuel = f + 1 := ⟨fuel - 1, by omega⟩
      exact ⟨h, rfl, hr, fun _ _ => rfl⟩
  | cons a l' ih =>
      obtain ⟨fuel, rfl⟩ : ∃ f, fuel = f + 1 := ⟨fuel - 1, by omega⟩
      obtain ⟨n, hlink, hrest⟩ := Linked.behind (l := []) hold
      have hn : n = headNode l' := by
        cases l' with
        | nil => exact hrest
        | cons b l' => exact hrest.head
      have hnext : next h (.element a) = .ok (headNode l') := by
        rw [next, hlink, hn]
      have hmiddle := List.nodup_cons.mp (List.perm_middle.nodup hnodup)
      have ha : a ∉ l := fun hmem => hmiddle.1 (List.mem_append_left _ hmem)
      have ha' : a ∉ l' := fun hmem => hmiddle.1 (List.mem_append_right _ hmem)
      have hlive : (h (.element a)).isSome :=
        isSome_of_isHooked (hold.isSome (List.mem_cons_self ..))
      obtain ⟨h₁, hpush, hr₁, hother⟩ := hr.pushFront_eq ha hlive
      have hold₁ : Linked (link h₁) (headNode l') (l'.map .element) .mFirst := by
        refine (hn ▸ hrest).congr fun m hm => ?_
        obtain ⟨b, hb, rfl⟩ := List.mem_map.mp hm
        rw [link, hother b fun hba => ha' (hba ▸ hb), link]
      obtain ⟨h', hloop, hr', hkept⟩ :=
        ih hr₁ hold₁ (List.nodup_cons.mpr hmiddle) (Nat.lt_of_succ_lt_succ hfuel)
      refine ⟨h', ?_, ?_, fun x hx => ?_⟩
      · rw [headNode, reverseLoop, hnext]
        dsimp only
        rw [hpush]
        exact hloop
      · rwa [List.reverse_cons, List.append_assoc, List.singleton_append]
      · rw [List.mem_cons, not_or] at hx
        rw [hkept x hx.2, hother x hx.1]

/-- `reverse`. -/
theorem reverse_eq {fuel : Nat} (hr : Represents h l) (hfuel : l.length < fuel) :
    ∃ h', reverse fuel h = .ok h' ∧ Represents h' l.reverse ∧
      ∀ x, x ∉ l → h' (.element x) = h (.element x) := by
  rw [reverse, hr.next_mFirst]
  dsimp only
  cases l with
  | nil => exact ⟨h, rfl, hr, fun _ _ => rfl⟩
  | cons a l =>
      rw [headNode, if_neg (by simp)]
      obtain ⟨n, -, hrest⟩ := Linked.behind (l := []) hr.circle
      have hold : Linked (link (clear h)) (headNode (a :: l)) ((a :: l).map .element) .mFirst := by
        refine (hrest.head ▸ hrest).congr fun m hm => ?_
        obtain ⟨b, -, rfl⟩ := List.mem_map.mp hm
        rw [link, clear, Function.update_of_ne (by simp), link]
      obtain ⟨h', hloop, hr', hkept⟩ := reverseLoop_eq (clear_eq h) hold hr.nodup hfuel
      rw [List.append_nil] at hr'
      refine ⟨h', hloop, hr', fun x hx => ?_⟩
      rw [hkept x hx, clear, Function.update_of_ne (by simp)]

/-- The loop of `distance`, with the elements `l'` still before the iterator. -/
theorem distanceLoop_eq {fuel ret : Nat} (hr : Represents h (l ++ l'))
    (hfuel : l'.length < fuel) :
    distanceLoop h fuel (headNode l') ret = .ok (ret + l'.length) := by
  induction l' generalizing l fuel ret with
  | nil =>
      obtain ⟨fuel, rfl⟩ : ∃ f, fuel = f + 1 := ⟨fuel - 1, by omega⟩
      rfl
  | cons a l' ih =>
      obtain ⟨fuel, rfl⟩ : ∃ f, fuel = f + 1 := ⟨fuel - 1, by omega⟩
      have hnext := hr.next_element
      rw [List.append_cons] at hr
      rw [headNode, distanceLoop, if_neg (by simp), hnext]
      dsimp only
      rw [ih hr (Nat.lt_of_succ_lt_succ hfuel), List.length_cons]
      congr 1
      omega

/-- `size`. -/
theorem size_eq {fuel : Nat} (hr : Represents h l) (hfuel : l.length < fuel) :
    size fuel h = .ok l.length := by
  rw [size, hr.next_mFirst]
  dsimp only
  rw [distanceLoop_eq (l := []) hr hfuel, Nat.zero_add]

/-- The loop of `remove_if`, with the elements `l'` still before the iterator. -/
theorem removeIfLoop_eq (pred : α → Bool) {fuel steps : Nat} (hr : Represents h (l ++ l'))
    (hfuel : (l ++ l').length ≤ fuel) (hsteps : l'.length < steps) :
    ∃ h', removeIfLoop pred fuel steps (headNode l') h = .ok h' ∧
      Represents h' (l ++ l'.filter (!pred ·)) ∧
      (∀ b ∈ l', pred b = true → h' (.element b) = some none) ∧
      ∀ b, b ∉ l ++ l' → h' (.element b) = h (.element b) := by
  induction l' generalizing l h steps with
  | nil =>
      obtain ⟨steps, rfl⟩ : ∃ n, steps = n + 1 := ⟨steps - 1, by omega⟩
      exact ⟨h, rfl, hr, by simp, fun _ _ => rfl⟩
  | cons a l' ih =>
      obtain ⟨steps, rfl⟩ : ∃ n, steps = n + 1 := ⟨steps - 1, by omega⟩
      have hlt : l'.length < steps := Nat.lt_of_succ_lt_succ hsteps
      have hlen : (l ++ a :: l').length = (l ++ l').length + 1 := by
        simp only [List.length_append, List.length_cons, Nat.add_assoc]
      by_cases ha : pred a = true
      · have hl : l.length ≤ fuel := by
          rw [hlen, List.length_append] at hfuel
          omega
        obtain ⟨h₁, herase, hr₁, hself, hother⟩ := hr.erase_eq hl
        obtain ⟨h', hloop, hr', hremoved, hkept⟩ := ih hr₁ (by omega) hlt
        have hnot : a ∉ l ++ l' := (List.nodup_cons.mp (List.perm_middle.nodup hr.nodup)).1
        refine ⟨h', ?_, ?_, ?_, ?_⟩
        · rw [headNode, removeIfLoop, if_pos ha, herase]
          exact hloop
        · rwa [List.filter_cons_of_neg (by simp [ha])]
        · intro b hb hpred
          rcases List.mem_cons.mp hb with rfl | hb
          · rw [hkept b hnot, hself]
          · exact hremoved b hb hpred
        · intro b hb
          have hb' : b ∉ l ++ l' := fun hmem =>
            hb (List.perm_middle.mem_iff.mpr (List.mem_cons_of_mem _ hmem))
          rw [hkept b hb', hother b hb]
      · have hnext := hr.next_element
        rw [List.append_cons] at hr hfuel
        obtain ⟨h', hloop, hr', hremoved, hkept⟩ := ih hr hfuel hlt
        refine ⟨h', ?_, ?_, ?_, ?_⟩
        · rw [headNode, removeIfLoop, if_neg ha, hnext]
          exact hloop
        · rwa [List.filter_cons_of_pos (by simp [ha]), List.append_cons]
        · intro b hb hpred
          rcases List.mem_cons.mp hb with rfl | hb
          · exact absurd hpred ha
          · exact hremoved b hb hpred
        · rw [List.append_cons]
          exact hkept

/-- `remove_if` takes the elements of a kind out of the list. -/
theorem removeIf_eq (pred : α → Bool) {fuel : Nat} (hr : Represents h l)
    (hfuel : l.length < fuel) :
    ∃ h', removeIf pred fuel h = .ok h' ∧ Represents h' (l.filter (!pred ·)) ∧
      (∀ b ∈ l, pred b = true → h' (.element b) = some none) ∧
      ∀ b, b ∉ l → h' (.element b) = h (.element b) := by
  rw [removeIf, hr.next_mFirst]
  exact removeIfLoop_eq (l := []) pred hr (Nat.le_of_lt hfuel) hfuel

end Represents

end Slist

end Dsi
