import Dsi.Lib.Sorting

/-!
# Dsi.Gen.UpdateIds

The numbering of the elements of an interface by the code generator
(`BaseObject.java`, `Method.java`, `ServiceInterface.java`, `DSI.hpp.jet`): the
files are read element by element, a base interface where it is referenced, the
lists are sorted, and the update ID of an element is its position in its list.

The comparison never says that an element is less than another one, so a sort
leaves the elements in the order of the files.
-/

namespace Dsi.Gen

open Sorting

/-! ## Descriptions -/

/-- What of a `Method` or `Attribute` tag the numbering reads. -/
structure Element where
  name : String
  id : Option Int
  type : Option String
  deriving DecidableEq, Repr

/-- The children of the root of a description that touch the numbered lists. -/
inductive Node where
  | methods (children : List Element)
  | attributes (children : List Element)
  | includes
  | baseInterface (root : List Node)

/-- `BaseObject`. -/
structure BaseObject where
  mName : String
  mID : Int
  deriving DecidableEq, Repr

/-- `BaseObject.readElements`; an element without an ID has the initial one. -/
def BaseObject.read (node : Element) : BaseObject := ⟨node.name, node.id.getD (-1)⟩

/-- `compareTo`. -/
def BaseObject.compareTo (a b : BaseObject) : Int := if a.mID < b.mID then 0 else 1

/-- `equals`. -/
def BaseObject.equals (a b : BaseObject) : Bool := a.mID == b.mID

/-- `Method`. -/
structure Method extends BaseObject where
  mType : String
  deriving DecidableEq, Repr

/-- The constructor: the name stands for a type that is not given. -/
def Method.read (node : Element) : Method :=
  { BaseObject.read node with
    mName := node.name.capitalize
    mType := node.type.getD node.name }

/-- `isRequest`: the type matches `request|(un)?register`. -/
def Method.isRequest (m : Method) : Bool :=
  ["request", "register", "unregister"].contains m.mType.toLower

/-! ## Reading a description -/

/-- `GenerateException`. -/
structure GenerateException where
  message : String
  deriving DecidableEq, Repr

/-- The lists of `ServiceInterface` that are numbered. -/
structure ServiceInterface where
  mFile : String
  mRequestMethods : List Method
  mResponseMethods : List Method
  mAttributes : List BaseObject

/-- `if(list.contains(element)) throw ...; list.add(element)`. -/
def addElement {α : Type} (base : α → BaseObject) (message : String) (list : List α) (x : α) :
    Except GenerateException (List α) :=
  if list.any (fun y => (base x).equals (base y)) then .error ⟨message⟩ else .ok (list ++ [x])

namespace ServiceInterface

variable (S : LibrarySort)

/-- The loop of `readMethods`. -/
def addMethod (si : ServiceInterface) (child : Element) :
    Except GenerateException ServiceInterface :=
  let method := Method.read child
  if method.isRequest then do
    let methods ← addElement Method.toBaseObject
      s!"Duplicate Request ID {method.mID} in {si.mFile}" si.mRequestMethods method
    .ok { si with mRequestMethods := methods }
  else do
    let methods ← addElement Method.toBaseObject
      s!"Duplicate Response ID {method.mID} in {si.mFile}" si.mResponseMethods method
    .ok { si with mResponseMethods := methods }

/-- The loop of `readAttributes`. -/
def addAttribute (si : ServiceInterface) (child : Element) :
    Except GenerateException ServiceInterface := do
  let value := BaseObject.read child
  let values ← addElement id
    s!"Duplicate Attribute ID {value.mID} in {si.mFile}" si.mAttributes value
  .ok { si with mAttributes := values }

/-- `Collections.sort` of a list of methods. -/
def sortMethods (methods : List Method) : List Method :=
  S.sort (fun a b => a.toBaseObject.compareTo b.toBaseObject) methods

def readMethods (si : ServiceInterface) (children : List Element) :
    Except GenerateException ServiceInterface := do
  let si ← children.foldlM addMethod si
  .ok { si with
    mRequestMethods := sortMethods S si.mRequestMethods
    mResponseMethods := sortMethods S si.mResponseMethods }

def readAttributes (si : ServiceInterface) (children : List Element) :
    Except GenerateException ServiceInterface := do
  let si ← children.foldlM addAttribute si
  .ok { si with mAttributes := S.sort BaseObject.compareTo si.mAttributes }

mutual

/-- `readElement`; `mergeBaseInterface` reads the other file into the same lists. -/
def readElement (si : ServiceInterface) : Node → Except GenerateException ServiceInterface
  | .methods children => si.readMethods S children
  | .attributes children => si.readAttributes S children
  | .includes => .ok { si with mAttributes := S.sort BaseObject.compareTo si.mAttributes }
  | .baseInterface root => readElements si root

/-- `readElements`. -/
def readElements (si : ServiceInterface) : List Node → Except GenerateException ServiceInterface
  | [] => .ok si
  | node :: nodes => do
      let si ← readElement si node
      readElements si nodes

end

/-- The constructor. -/
def read (mFile : String) (root : List Node) : Except GenerateException ServiceInterface :=
  readElements S ⟨mFile, [], [], []⟩ root

end ServiceInterface

/-! ## Numbering -/

/-- What is numbered in a range of its own. -/
inductive Kind where
  | requests
  | responses
  | attributes
  deriving DecidableEq, Repr

/-- `REQUEST_ID_FIRST`, `RESPONSE_ID_FIRST` and `ATTRIBUTE_ID_FIRST`. -/
def Kind.first : Kind → Nat
  | .requests => 0x00000000
  | .responses => 0x80000000
  | .attributes => 0xC0000000

/-- `getRequestMethods`, `getResponseMethods` and `getAttributes`. -/
def ServiceInterface.elements (si : ServiceInterface) : Kind → List BaseObject
  | .requests => si.mRequestMethods.map Method.toBaseObject
  | .responses => si.mResponseMethods.map Method.toBaseObject
  | .attributes => si.mAttributes

/-- `UpdateIdEnum`: the elements of a kind with their update IDs. -/
def ServiceInterface.updateIds (si : ServiceInterface) (kind : Kind) : List (BaseObject × Nat) :=
  (si.elements kind).zipIdx.map fun (x, index) => (x, kind.first + index)

/-! ## What is read -/

mutual

/-- The elements of a kind that a description declares, in the order of the files. -/
def Node.declared (kind : Kind) : Node → List BaseObject
  | .methods children =>
      match kind with
      | .requests => ((children.map Method.read).filter (·.isRequest)).map Method.toBaseObject
      | .responses => ((children.map Method.read).filter (!·.isRequest)).map Method.toBaseObject
      | .attributes => []
  | .attributes children =>
      match kind with
      | .attributes => children.map BaseObject.read
      | _ => []
  | .includes => []
  | .baseInterface root => declared kind root

def declared (kind : Kind) : List Node → List BaseObject
  | [] => []
  | node :: nodes => node.declared kind ++ declared kind nodes

end

/-- The IDs of a list are pairwise distinct. -/
def DistinctIDs (list : List BaseObject) : Prop := (list.map (·.mID)).Nodup

/-- If no ID occurs twice, then what is read is appended to the lists. -/
def Appends (si : ServiceInterface) (new : Kind → List BaseObject)
    (result : Except GenerateException ServiceInterface) : Prop :=
  (∀ kind, DistinctIDs (si.elements kind ++ new kind)) →
    ∃ si', result = .ok si' ∧ ∀ kind, si'.elements kind = si.elements kind ++ new kind

namespace Appends

variable {si : ServiceInterface} {new new' : Kind → List BaseObject}
  {result : Except GenerateException ServiceInterface}

theorem nothing (si : ServiceInterface) : Appends si (fun _ => []) (.ok si) :=
  fun _ => ⟨si, rfl, by simp⟩

theorem bind {f : ServiceInterface → Except GenerateException ServiceInterface}
    (h : Appends si new result) (hf : ∀ si', Appends si' new' (f si')) :
    Appends si (fun kind => new kind ++ new' kind) (result >>= f) := by
  intro hids
  obtain ⟨si₁, hok₁, helements₁⟩ := h fun kind => by
    have hkind := hids kind
    rw [DistinctIDs, ← List.append_assoc, List.map_append] at hkind
    exact (List.nodup_append.mp hkind).1
  obtain ⟨si₂, hok₂, helements₂⟩ := hf si₁ fun kind => by
    rw [helements₁, List.append_assoc]
    exact hids kind
  refine ⟨si₂, by rw [hok₁]; exact hok₂, fun kind => ?_⟩
  rw [helements₂, helements₁, List.append_assoc]

/-- What follows a result that keeps the lists does not matter. -/
theorem andThen {f : ServiceInterface → ServiceInterface} (h : Appends si new result)
    (hf : ∀ si' kind, (f si').elements kind = si'.elements kind) :
    Appends si new (result >>= fun si' => .ok (f si')) := by
  intro hids
  obtain ⟨si', hok, helements⟩ := h hids
  exact ⟨f si', by rw [hok]; rfl, fun kind => by rw [hf, helements]⟩

end Appends

/-- No element is less than another one, so nothing is moved. -/
theorem sort_eq_self (S : LibrarySort) {α : Type} (base : α → BaseObject) (list : List α) :
    S.sort (fun a b => (base a).compareTo (base b)) list = list := by
  refine S.eq_self_of_run (List.pairwise_of_forall fun a b => ?_).isChain
  rw [BaseObject.compareTo]
  split <;> decide

theorem sort_attributes (S : LibrarySort) (list : List BaseObject) :
    S.sort BaseObject.compareTo list = list := sort_eq_self S id list

theorem addElement_of_new {α : Type} {base : α → BaseObject} {message : String} {list : List α}
    {x : α} (h : (base x).mID ∉ list.map fun y => (base y).mID) :
    addElement base message list x = .ok (list ++ [x]) := by
  have hnew : list.any (fun y => (base x).equals (base y)) = false := by
    rw [List.any_eq_false]
    intro y hy heq
    exact h (List.mem_map.mpr ⟨y, hy, (beq_iff_eq.mp heq).symm⟩)
  simp [addElement, hnew]

theorem not_mem_of_distinctIDs {list : List BaseObject} {x : BaseObject}
    (h : DistinctIDs (list ++ [x])) : x.mID ∉ list.map (·.mID) := by
  rw [DistinctIDs, List.map_append, List.nodup_append] at h
  exact fun hmem => h.2.2 _ hmem _ (by simp) rfl

namespace ServiceInterface

variable (S : LibrarySort)

theorem appends_addMethod (si : ServiceInterface) (child : Element) :
    Appends si (fun kind => (Node.methods [child]).declared kind) (si.addMethod child) := by
  intro hids
  cases hreq : (Method.read child).isRequest with
  | true =>
      have hnew := not_mem_of_distinctIDs (x := (Method.read child).toBaseObject)
        (by simpa [Node.declared, hreq] using hids .requests)
      have hadd (message : String) : addElement Method.toBaseObject message si.mRequestMethods
          (Method.read child) = .ok (si.mRequestMethods ++ [Method.read child]) :=
        addElement_of_new (by simpa [elements] using hnew)
      refine ⟨{ si with mRequestMethods := si.mRequestMethods ++ [Method.read child] }, ?_, ?_⟩
      · simp only [addMethod, hreq, if_true, hadd]
        rfl
      · intro kind
        cases kind <;> simp [elements, Node.declared, hreq]
  | false =>
      have hnew := not_mem_of_distinctIDs (x := (Method.read child).toBaseObject)
        (by simpa [Node.declared, hreq] using hids .responses)
      have hadd (message : String) : addElement Method.toBaseObject message si.mResponseMethods
          (Method.read child) = .ok (si.mResponseMethods ++ [Method.read child]) :=
        addElement_of_new (by simpa [elements] using hnew)
      refine ⟨{ si with mResponseMethods := si.mResponseMethods ++ [Method.read child] }, ?_, ?_⟩
      · simp only [addMethod, hreq, Bool.false_eq_true, if_false, hadd]
        rfl
      · intro kind
        cases kind <;> simp [elements, Node.declared, hreq]

theorem appends_addAttribute (si : ServiceInterface) (child : Element) :
    Appends si (fun kind => (Node.attributes [child]).declared kind) (si.addAttribute child) := by
  intro hids
  have hnew := not_mem_of_distinctIDs (x := BaseObject.read child)
    (by simpa [Node.declared] using hids .attributes)
  have hadd (message : String) : addElement id message si.mAttributes (BaseObject.read child) =
      .ok (si.mAttributes ++ [BaseObject.read child]) :=
    addElement_of_new (by simpa [elements] using hnew)
  refine ⟨{ si with mAttributes := si.mAttributes ++ [BaseObject.read child] }, ?_, ?_⟩
  · simp only [addAttribute, hadd]
    rfl
  · intro kind
    cases kind <;> simp [elements, Node.declared]

/-- A loop over the children of a tag. -/
theorem appends_foldlM {f : ServiceInterface → Element → Except GenerateException ServiceInterface}
    (tag : List Element → Node) (hnil : ∀ kind, (tag []).declared kind = [])
    (hcons : ∀ kind child children, (tag (child :: children)).declared kind =
      (tag [child]).declared kind ++ (tag children).declared kind)
    (hf : ∀ si child, Appends si (fun kind => (tag [child]).declared kind) (f si child))
    (si : ServiceInterface) (children : List Element) :
    Appends si (fun kind => (tag children).declared kind) (children.foldlM f si) := by
  induction children generalizing si with
  | nil =>
      simp only [hnil]
      exact Appends.nothing si
  | cons child children ih =>
      rw [List.foldlM_cons, funext fun kind => hcons kind child children]
      exact (hf si child).bind ih

theorem appends_readMethods (si : ServiceInterface) (children : List Element) :
    Appends si (fun kind => (Node.methods children).declared kind) (si.readMethods S children) := by
  have hcons (kind : Kind) (child : Element) (children : List Element) :
      (Node.methods (child :: children)).declared kind =
        (Node.methods [child]).declared kind ++ (Node.methods children).declared kind := by
    cases hreq : (Method.read child).isRequest <;> cases kind <;> simp [Node.declared, hreq]
  have hloop := appends_foldlM .methods (by intro kind; cases kind <;> simp [Node.declared]) hcons
    appends_addMethod si children
  refine hloop.andThen fun si' kind => ?_
  simp only [sortMethods, sort_eq_self]

theorem appends_readAttributes (si : ServiceInterface) (children : List Element) :
    Appends si (fun kind => (Node.attributes children).declared kind)
      (si.readAttributes S children) := by
  have hcons (kind : Kind) (child : Element) (children : List Element) :
      (Node.attributes (child :: children)).declared kind =
        (Node.attributes [child]).declared kind ++ (Node.attributes children).declared kind := by
    cases kind <;> simp [Node.declared]
  have hloop := appends_foldlM .attributes (by intro kind; cases kind <;> simp [Node.declared])
    hcons appends_addAttribute si children
  refine hloop.andThen fun si' kind => ?_
  rw [sort_attributes]

mutual

theorem appends_readElement (si : ServiceInterface) :
    (node : Node) → Appends si (fun kind => node.declared kind) (si.readElement S node)
  | .methods children => by
      simpa only [readElement] using appends_readMethods S si children
  | .attributes children => by
      simpa only [readElement] using appends_readAttributes S si children
  | .includes => by
      simpa only [readElement, Node.declared, sort_attributes] using Appends.nothing si
  | .baseInterface root => by
      simpa only [readElement, Node.declared] using appends_readElements si root

theorem appends_readElements (si : ServiceInterface) :
    (nodes : List Node) → Appends si (fun kind => declared kind nodes) (si.readElements S nodes)
  | [] => by
      simpa only [readElements, declared] using Appends.nothing si
  | node :: nodes => by
      simpa only [readElements, declared] using
        (appends_readElement si node).bind fun si' => appends_readElements si' nodes

end

/-- A description with distinct IDs is read, and the lists have its elements in
the order of the files. -/
theorem read_eq (mFile : String) {root : List Node}
    (hids : ∀ kind, DistinctIDs (declared kind root)) :
    ∃ si, read S mFile root = .ok si ∧ ∀ kind, si.elements kind = declared kind root := by
  have hempty (kind : Kind) : (⟨mFile, [], [], []⟩ : ServiceInterface).elements kind = [] := by
    cases kind <;> rfl
  obtain ⟨si, hok, helements⟩ := appends_readElements S ⟨mFile, [], [], []⟩ root fun kind => by
    rw [hempty, List.nil_append]
    exact hids kind
  refine ⟨si, hok, fun kind => ?_⟩
  rw [helements, hempty, List.nil_append]

end ServiceInterface

/-! ## What is numbered -/

/-- The update ID of an element is the first one of its kind plus the number of
elements of the kind that are declared with a smaller ID. -/
def FollowsDeclaredIDs (root : List Node) (si : ServiceInterface) (kind : Kind) : Prop :=
  ∀ x id, (x, id) ∈ si.updateIds kind →
    id = kind.first + (declared kind root).countP (fun y => y.mID < x.mID)

section Numbering

variable {si si' : ServiceInterface} {kind : Kind} {root root' : List Node}

theorem mem_updateIds {x : BaseObject} {id : Nat} :
    (x, id) ∈ si.updateIds kind ↔
      ∃ (i : Nat) (hi : i < (si.elements kind).length),
        x = (si.elements kind)[i] ∧ id = kind.first + i := by
  rw [ServiceInterface.updateIds, List.mem_map]
  constructor
  · rintro ⟨⟨y, i⟩, hy, heq⟩
    obtain ⟨hi, hget⟩ := List.getElem?_eq_some_iff.mp (List.mem_zipIdx_iff_getElem?.mp hy)
    obtain ⟨rfl, rfl⟩ := Prod.mk.inj heq
    exact ⟨i, hi, hget.symm, rfl⟩
  · rintro ⟨i, hi, rfl, rfl⟩
    exact ⟨(_, i), List.mem_zipIdx_iff_getElem?.mpr (List.getElem?_eq_getElem hi), rfl⟩

/-- Positions are ranks if and only if the elements are in the order of their IDs. -/
theorem followsDeclaredIDs_iff (helements : si.elements kind = declared kind root) :
    FollowsDeclaredIDs root si kind ↔ (declared kind root).Pairwise (fun a b => a.mID < b.mID) := by
  refine Iff.trans ?_ (rank_eq_index_iff BaseObject.mID (declared kind root))
  rw [← helements]
  constructor
  · intro h i hi
    have hid := h _ _ (mem_updateIds.mpr ⟨i, hi, rfl, rfl⟩)
    rw [← helements] at hid
    omega
  · rintro h x id hmem
    obtain ⟨i, hi, rfl, rfl⟩ := mem_updateIds.mp hmem
    rw [← helements, h i hi]

/-- Two descriptions that are numbered by the declared IDs agree, whatever the
order of their elements, and new elements with larger IDs change nothing. -/
theorem updateIds_subset {new : List BaseObject}
    (helements : si.elements kind = declared kind root)
    (helements' : si'.elements kind = declared kind root')
    (h : FollowsDeclaredIDs root si kind) (h' : FollowsDeclaredIDs root' si' kind)
    (hperm : (declared kind root').Perm (declared kind root ++ new))
    (hlarger : ∀ x ∈ declared kind root, ∀ y ∈ new, x.mID < y.mID) :
    si.updateIds kind ⊆ si'.updateIds kind := by
  rintro ⟨x, id⟩ hmem
  have hid := h x id hmem
  obtain ⟨i, hi, hx, -⟩ := mem_updateIds.mp hmem
  have hx : x ∈ declared kind root := by
    rw [← helements, hx]
    exact List.getElem_mem hi
  have hx' : x ∈ si'.elements kind := by
    rw [helements', hperm.mem_iff]
    exact List.mem_append_left new hx
  obtain ⟨j, hj, hget⟩ := List.getElem_of_mem hx'
  have hmem' : (x, kind.first + j) ∈ si'.updateIds kind :=
    mem_updateIds.mpr ⟨j, hj, hget.symm, rfl⟩
  have hnew : new.countP (fun y => y.mID < x.mID) = 0 := by
    refine List.countP_eq_zero.mpr fun y hy => ?_
    have hlt := hlarger x hx y hy
    simp
    omega
  have hid' := h' x _ hmem'
  rw [hperm.countP_eq, List.countP_append, hnew, Nat.add_zero, ← hid] at hid'
  exact hid' ▸ hmem'

end Numbering

/-- **Update IDs**: a description with distinct IDs is read, and a kind of its
elements is numbered by the declared IDs if and only if the files have them in
ascending order.  Numbered so, two descriptions agree on the elements they share
unless one has elements in between. -/
theorem updateIds_follow_iff (S : LibrarySort) (mFile : String) (root : List Node)
    (hids : ∀ kind, DistinctIDs (declared kind root)) :
    ∃ si, ServiceInterface.read S mFile root = .ok si ∧
      (∀ kind, FollowsDeclaredIDs root si kind ↔
        (declared kind root).Pairwise (fun a b => a.mID < b.mID)) ∧
      ∀ (mFile' : String) (root' : List Node) (si' : ServiceInterface) (kind : Kind)
        (new : List BaseObject), (∀ kind, DistinctIDs (declared kind root')) →
        ServiceInterface.read S mFile' root' = .ok si' →
        (declared kind root').Perm (declared kind root ++ new) →
        (∀ x ∈ declared kind root, ∀ y ∈ new, x.mID < y.mID) →
        FollowsDeclaredIDs root si kind → FollowsDeclaredIDs root' si' kind →
        si.updateIds kind ⊆ si'.updateIds kind := by
  obtain ⟨si, hok, helements⟩ := ServiceInterface.read_eq S mFile hids
  refine ⟨si, hok, fun kind => followsDeclaredIDs_iff (helements kind), ?_⟩
  intro mFile' root' si' kind new hids' hok' hperm hlarger h h'
  obtain ⟨si'', hok'', helements'⟩ := ServiceInterface.read_eq S mFile' hids'
  obtain rfl : si'' = si' := Except.ok.inj (hok''.symm.trans hok')
  exact updateIds_subset (helements kind) (helements' kind) h h' hperm hlarger

/-- Attributes of a base interface, behind those of the interface. -/
theorem updateIds_base_interface_behind :
    ∃ si, ServiceInterface.read timSort "Player.hbsi"
        [.attributes [⟨"volume", some 1, none⟩, ⟨"title", some 2, none⟩],
          .baseInterface [.attributes [⟨"state", some 10, none⟩]]] = .ok si ∧
      FollowsDeclaredIDs
        [.attributes [⟨"volume", some 1, none⟩, ⟨"title", some 2, none⟩],
          .baseInterface [.attributes [⟨"state", some 10, none⟩]]] si .attributes := by
  obtain ⟨si, hok, hfollows, -⟩ := updateIds_follow_iff timSort "Player.hbsi"
    [.attributes [⟨"volume", some 1, none⟩, ⟨"title", some 2, none⟩],
      .baseInterface [.attributes [⟨"state", some 10, none⟩]]] (by
    intro kind
    cases kind <;> simp [DistinctIDs, declared, Node.declared, BaseObject.read])
  exact ⟨si, hok, (hfollows .attributes).mpr (by
    simp [declared, Node.declared, BaseObject.read])⟩

/-- Declared in the other order, the attribute with the larger ID has the first
update ID. -/
theorem not_followsDeclaredIDs_descending :
    ¬ ∀ (S : LibrarySort) (mFile : String) (root : List Node),
      (∀ kind, DistinctIDs (declared kind root)) →
      ∃ si, ServiceInterface.read S mFile root = .ok si ∧
        ∀ kind, FollowsDeclaredIDs root si kind := by
  intro h
  obtain ⟨si, hok, hfollows⟩ := h timSort "Player.hbsi"
    [.attributes [⟨"title", some 2, none⟩, ⟨"volume", some 1, none⟩]] (by
    intro kind
    cases kind <;> simp [DistinctIDs, declared, Node.declared, BaseObject.read])
  have hread : ServiceInterface.read timSort "Player.hbsi"
      [.attributes [⟨"title", some 2, none⟩, ⟨"volume", some 1, none⟩]] =
      .ok ⟨"Player.hbsi", [], [], [⟨"title", 2⟩, ⟨"volume", 1⟩]⟩ := by rfl
  obtain rfl := Except.ok.inj (hread.symm.trans hok)
  have hid := hfollows .attributes ⟨"title", 2⟩ 0xC0000000 (by decide)
  contradiction

end Dsi.Gen
