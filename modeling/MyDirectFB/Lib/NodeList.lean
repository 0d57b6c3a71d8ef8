/-
Linked lists as their iterators see them.  Every node has a name that no other
node of the list ever gets, so an iterator to an erased node can be told from
one to a node in the list, also when the same value is inserted again.
-/
import Mathlib.Data.List.Nodup

universe u

/-- The nodes of a list in order, with their names and values.  Names from
`fresh` on have not been used. -/
structure NodeList (A : Type u) where
  nodes : List (Nat × A)
  fresh : Nat
  lt_fresh : ∀ name ∈ nodes.map Prod.fst, name < fresh
  nodup : (nodes.map Prod.fst).Nodup

namespace NodeList

variable {A : Type u}

def names (list : NodeList A) : List Nat := list.nodes.map Prod.fst

def values (list : NodeList A) : List A := list.nodes.map Prod.snd

def empty : NodeList A where
  nodes := []
  fresh := 0
  lt_fresh := List.forall_mem_nil _
  nodup := List.nodup_nil

theorem fresh_not_mem (list : NodeList A) : list.fresh ∉ list.names :=
  fun hmem => Nat.lt_irrefl _ (list.lt_fresh _ hmem)

def pushBack (list : NodeList A) (value : A) : NodeList A where
  nodes := list.nodes ++ [(list.fresh, value)]
  fresh := list.fresh + 1
  lt_fresh := by
    intro name hname
    rw [List.map_append, List.mem_append, List.map_singleton,
      List.mem_singleton] at hname
    rcases hname with hold | rfl
    · exact Nat.lt_succ_of_lt (list.lt_fresh name hold)
    · exact Nat.lt_succ_self _
  nodup := by
    rw [List.map_append, List.map_singleton, ← List.concat_eq_append]
    exact List.Nodup.concat list.fresh_not_mem list.nodup

def pushFront (list : NodeList A) (value : A) : NodeList A where
  nodes := (list.fresh, value) :: list.nodes
  fresh := list.fresh + 1
  lt_fresh := by
    intro name hname
    rw [List.map_cons, List.mem_cons] at hname
    rcases hname with rfl | hold
    · exact Nat.lt_succ_self _
    · exact Nat.lt_succ_of_lt (list.lt_fresh name hold)
  nodup := by
    rw [List.map_cons]
    exact List.nodup_cons.mpr ⟨list.fresh_not_mem, list.nodup⟩

/-- Erase the first node that holds a value. -/
def eraseFirst [DecidableEq A] (list : NodeList A) (value : A) :
    NodeList A where
  nodes := list.nodes.eraseP fun node => decide (node.2 = value)
  fresh := list.fresh
  lt_fresh name hname :=
    list.lt_fresh name ((List.eraseP_sublist.map Prod.fst).subset hname)
  nodup := list.nodup.sublist (List.eraseP_sublist.map Prod.fst)

/-- The iterator to the first node; `none` is the end. -/
def first (list : NodeList A) : Option Nat := list.names.head?

/-- The iterator after the one to a node of the list. -/
def next (list : NodeList A) (name : Nat) : Option Nat :=
  (list.names.dropWhile fun other => decide (other ≠ name)).tail.head?

/-- The value of a node of the list. -/
def value? (list : NodeList A) (name : Nat) : Option A :=
  (list.nodes.find? fun node => decide (node.1 = name)).map Prod.snd

theorem names_nodup (list : NodeList A) : list.names.Nodup := list.nodup

@[simp] theorem names_pushBack (list : NodeList A) (value : A) :
    (list.pushBack value).names = list.names ++ [list.fresh] := by
  simp [pushBack, names]

@[simp] theorem values_pushBack (list : NodeList A) (value : A) :
    (list.pushBack value).values = list.values ++ [value] := by
  simp [pushBack, values]

@[simp] theorem names_pushFront (list : NodeList A) (value : A) :
    (list.pushFront value).names = list.fresh :: list.names := rfl

/-- The iterator after a node is that to the next one. -/
theorem next_eq_head? {list : NodeList A} {front back : List Nat} {name : Nat}
    (hnames : list.names = front ++ name :: back) :
    list.next name = back.head? := by
  have hnot : name ∉ front := by
    have hnodup := list.names_nodup
    rw [hnames, List.nodup_append] at hnodup
    exact fun hmem => hnodup.2.2 name hmem name List.mem_cons_self rfl
  have hfront : ∀ other ∈ front, decide (other ≠ name) = true := by
    intro other hother
    exact decide_eq_true fun heq => hnot (heq ▸ hother)
  rw [next, hnames, List.dropWhile_append_of_pos hfront]
  simp

theorem mem_nodes_of_value? {list : NodeList A} {name : Nat} {value : A}
    (hvalue : list.value? name = some value) : (name, value) ∈ list.nodes := by
  obtain ⟨node, hfound, rfl⟩ := Option.map_eq_some_iff.mp hvalue
  have hsame : node.1 = name := by simpa using List.find?_some hfound
  rw [← hsame]
  exact List.mem_of_find?_eq_some hfound

theorem mem_values_of_value? {list : NodeList A} {name : Nat} {value : A}
    (hvalue : list.value? name = some value) : value ∈ list.values :=
  List.mem_map_of_mem (mem_nodes_of_value? hvalue)

/-- A list that holds no value twice has one node for each. -/
theorem eq_of_values_nodup {list : NodeList A} (hnodup : list.values.Nodup)
    {name other : Nat} {value : A} (hname : (name, value) ∈ list.nodes)
    (hother : (other, value) ∈ list.nodes) : name = other :=
  congrArg Prod.fst (List.inj_on_of_nodup_map hnodup hname hother rfl)

variable [DecidableEq A]

/-- The iterator at which the scan for a value stops; `none` is the end. -/
def find (list : NodeList A) (value : A) : Option Nat :=
  (list.nodes.find? fun node => decide (node.2 = value)).map Prod.fst

theorem nodes_eraseFirst (list : NodeList A) (value : A) :
    (list.eraseFirst value).nodes =
      list.nodes.eraseP fun node => decide (node.2 = value) := rfl

/-- Erasing takes the node with the first occurrence of the value out of the
list, or there is none. -/
theorem eraseFirst_cases (list : NodeList A) (value : A) :
    (value ∉ list.values ∧ (list.eraseFirst value).names = list.names) ∨
      value ∈ list.values ∧ ∃ front name back,
        list.names = front ++ name :: back ∧
        (list.eraseFirst value).names = front ++ back ∧
        front.length = list.values.idxOf value := by
  by_cases hvalue : value ∈ list.values
  · obtain ⟨node, hnode, hsame⟩ := List.mem_map.mp hvalue
    obtain ⟨erased, front, back, hfront, herased, hnodes, herase⟩ :=
      List.exists_of_eraseP (p := fun node => decide (node.2 = value)) hnode
        (decide_eq_true hsame)
    obtain rfl : erased.2 = value := of_decide_eq_true herased
    refine .inr ⟨hvalue, front.map Prod.fst, erased.1, back.map Prod.fst,
      ?_, ?_, ?_⟩
    · rw [names, hnodes, List.map_append, List.map_cons]
    · rw [names, nodes_eraseFirst, herase, List.map_append]
    · have hnot : erased.2 ∉ front.map Prod.snd := by
        intro hmem
        obtain ⟨other, hother, heq⟩ := List.mem_map.mp hmem
        exact hfront other hother (decide_eq_true heq)
      rw [values, hnodes, List.map_append, List.map_cons,
        List.idxOf_append_of_notMem hnot, List.idxOf_cons_self,
        List.length_map, List.length_map, Nat.add_zero]
  · refine .inl ⟨hvalue, ?_⟩
    have hnone : list.nodes.eraseP (fun node => decide (node.2 = value)) =
        list.nodes := by
      apply List.eraseP_of_forall_not
      intro node hnode hsame
      exact hvalue (List.mem_map.mpr ⟨node, hnode, of_decide_eq_true hsame⟩)
    rw [names, nodes_eraseFirst, hnone, names]

/-- Erasing keeps all nodes but one, in order. -/
theorem names_eraseFirst (list : NodeList A) (value : A) :
    ∃ erased, (list.eraseFirst value).names =
      list.names.filter fun name => decide (name ≠ erased) := by
  rcases list.eraseFirst_cases value with
    ⟨-, hsame⟩ | ⟨-, front, name, back, hnames, herased, -⟩
  · refine ⟨list.fresh, hsame.trans (List.filter_eq_self.mpr ?_).symm⟩
    intro name hname
    exact decide_eq_true fun heq => list.fresh_not_mem (heq ▸ hname)
  · have hnodup := list.names_nodup
    rw [hnames, List.nodup_middle, List.nodup_cons] at hnodup
    refine ⟨name, ?_⟩
    rw [herased, hnames, List.filter_append, List.filter_cons_of_neg (by simp),
      ← List.filter_append, List.filter_eq_self.mpr]
    intro other hother
    exact decide_eq_true fun heq => hnodup.1 (heq ▸ hother)

theorem values_eraseFirst (list : NodeList A) (value : A) :
    (list.eraseFirst value).values = list.values.erase value := by
  rw [values, values, nodes_eraseFirst, List.erase_eq_eraseP', List.eraseP_map]
  rfl

theorem find_eq_none_iff {list : NodeList A} {value : A} :
    list.find value = none ↔ value ∉ list.values := by
  rw [find, Option.map_eq_none_iff, List.find?_eq_none, values, List.mem_map]
  constructor
  · rintro hnone ⟨node, hnode, hsame⟩
    exact hnone node hnode (decide_eq_true hsame)
  · intro habsent node hnode hsame
    exact habsent ⟨node, hnode, of_decide_eq_true hsame⟩

/-- The node at which the scan stops is the one that erasing takes out. -/
theorem value?_eraseFirst_of_find {list : NodeList A} {value : A} {name : Nat}
    (hfind : list.find value = some name) :
    (list.eraseFirst value).value? name = none := by
  obtain ⟨node, hfound, rfl⟩ := Option.map_eq_some_iff.mp hfind
  obtain ⟨hsame, front, back, hnodes, hfront⟩ :=
    List.find?_eq_some_iff_append.mp hfound
  have herase : (list.eraseFirst value).nodes = front ++ back := by
    rw [nodes_eraseFirst, hnodes, List.eraseP_append_right,
      List.eraseP_cons_of_pos (p := fun other : Nat × A => decide (other.2 = value))
        hsame]
    exact fun other hother => by simpa using hfront other hother
  have hnodup := list.nodup
  rw [hnodes, List.map_append, List.map_cons, List.nodup_middle, List.nodup_cons,
    ← List.map_append] at hnodup
  rw [value?, herase, Option.map_eq_none_iff, List.find?_eq_none]
  intro other hother hname
  exact hnodup.1 (List.mem_map.mpr ⟨other, hother, of_decide_eq_true hname⟩)

end NodeList
