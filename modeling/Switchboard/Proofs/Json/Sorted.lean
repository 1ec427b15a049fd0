import Mathlib.Data.List.Nodup
import Mathlib.Data.String.Basic
import Switchboard.Json.Record

/-!
# Values with their members in key order

A value is kept with the members of its objects in key order. Of members with distinct keys
nothing is lost by that : they are the same members (`sortMembers_perm`), and who looks up a
key finds the same (`get?_sorted`). Members that are in order stay where they are, so that
putting a value in order once is enough (`sorted_sorted`).
-/

namespace Switchboard

/-! ## Members with distinct keys -/

section Lookup

variable {κ α : Type} [BEq κ] [LawfulBEq κ] {k : κ} {a : α} {l l' : List (κ × α)}

theorem mem_of_lookup (h : l.lookup k = some a) : (k, a) ∈ l := by
  obtain ⟨before, after, rfl, -⟩ := List.lookup_eq_some_iff.mp h
  simp

theorem lookup_eq_some_iff_mem (distinct : (l.map (·.1)).Nodup) :
    l.lookup k = some a ↔ (k, a) ∈ l := by
  refine ⟨mem_of_lookup, fun h => ?_⟩
  obtain ⟨before, after, rfl⟩ := List.append_of_mem h
  refine List.lookup_eq_some_iff.mpr ⟨before, after, rfl, fun p hp => ?_⟩
  rw [List.map_append, List.nodup_append] at distinct
  have apart := distinct.2.2 p.1 (List.mem_map_of_mem hp) k (by simp)
  simpa using apart.symm

theorem lookup_eq_of_perm (distinct : (l.map (·.1)).Nodup) (same : l.Perm l') (k : κ) :
    l.lookup k = l'.lookup k := by
  have distinct' : (l'.map (·.1)).Nodup := (same.map _).nodup_iff.mp distinct
  refine Option.ext fun a => ?_
  rw [lookup_eq_some_iff_mem distinct, lookup_eq_some_iff_mem distinct', same.mem_iff]

omit [LawfulBEq κ] in
theorem lookup_map_snd {β : Type} (f : α → β) (l : List (κ × α)) (k : κ) :
    (l.map fun m => (m.1, f m.2)).lookup k = (l.lookup k).map f := by
  induction l with
  | nil => rfl
  | cons m rest ih =>
    obtain ⟨key, a⟩ := m
    rw [List.map_cons, List.lookup_cons, List.lookup_cons, ih]
    cases k == key <;> rfl

/-- Who asks for a key does not see members that are left out for their key. -/
theorem lookup_filter (p : κ → Bool) (l : List (κ × α)) (k : κ) :
    (l.filter fun m => p m.1).lookup k = if p k then l.lookup k else none := by
  induction l with
  | nil => simp
  | cons m rest ih =>
    obtain ⟨key, a⟩ := m
    rw [List.filter_cons, List.lookup_cons]
    by_cases hk : k == key
    · obtain rfl := beq_iff_eq.mp hk
      by_cases hp : p k <;> simp [hp, ih]
    · have hk : (k == key) = false := by simpa using hk
      by_cases hp : p key <;> simp [hp, ih, hk, List.lookup_cons]

end Lookup

/-! ## Sorting -/

section Members

variable {α : Type} {k : String} {a : α} {l l' : List (String × α)}

/-- The keys of the members increase. -/
def InKeyOrder (l : List (String × α)) : Prop := l.Pairwise fun m m' => m.1 < m'.1

theorem mem_insertMember {m : String × α} (h : m ∈ insertMember k a l) : m = (k, a) ∨ m ∈ l := by
  induction l with
  | nil => simpa [insertMember] using h
  | cons m' rest ih =>
    obtain ⟨k', a'⟩ := m'
    rw [insertMember] at h
    split_ifs at h
    · exact (List.mem_cons.mp h).imp_right (List.mem_cons_of_mem _)
    · exact List.mem_cons.mp h
    · rcases List.mem_cons.mp h with rfl | h
      · exact Or.inr List.mem_cons_self
      · exact (ih h).imp_right (List.mem_cons_of_mem _)

theorem inKeyOrder_insertMember (h : InKeyOrder l) : InKeyOrder (insertMember k a l) := by
  induction l with
  | nil => exact List.pairwise_singleton _ _
  | cons m rest ih =>
    obtain ⟨k', a'⟩ := m
    obtain ⟨first, ordered⟩ := List.pairwise_cons.mp h
    rw [insertMember]
    split_ifs with same before
    · subst same
      exact List.pairwise_cons.mpr ⟨first, ordered⟩
    · refine List.pairwise_cons.mpr ⟨fun m hm => ?_, h⟩
      rcases List.mem_cons.mp hm with rfl | hm
      · exact before
      · exact before.trans (first m hm)
    · refine List.pairwise_cons.mpr ⟨fun m hm => ?_, ih ordered⟩
      rcases mem_insertMember hm with rfl | hm
      · exact lt_of_le_of_ne (not_lt.mp before) (Ne.symm same)
      · exact first m hm

theorem insertMember_perm (new : k ∉ l.map (·.1)) :
    (insertMember k a l).Perm ((k, a) :: l) := by
  induction l with
  | nil => exact List.Perm.refl _
  | cons m rest ih =>
    obtain ⟨k', a'⟩ := m
    rw [List.map_cons, List.mem_cons, not_or] at new
    rw [insertMember, if_neg new.1]
    split_ifs
    · exact List.Perm.refl _
    · exact ((ih new.2).cons _).trans (List.Perm.swap ..)

theorem mem_sortMembers {m : String × α} (h : m ∈ sortMembers l) : m ∈ l := by
  have run : ∀ sorted : List (String × α),
      m ∈ l.foldl (fun sorted m => insertMember m.1 m.2 sorted) sorted → m ∈ l ∨ m ∈ sorted := by
    clear h
    induction l with
    | nil => exact fun _ h => Or.inr h
    | cons m' rest ih =>
      intro sorted h
      rcases ih _ h with h | h
      · exact Or.inl (List.mem_cons_of_mem _ h)
      · refine (mem_insertMember h).imp_left fun e => ?_
        rw [e]
        exact List.mem_cons_self
  exact (run [] h).resolve_right List.not_mem_nil

theorem inKeyOrder_sortMembers (l : List (String × α)) : InKeyOrder (sortMembers l) := by
  have run : ∀ sorted : List (String × α), InKeyOrder sorted →
      InKeyOrder (l.foldl (fun sorted m => insertMember m.1 m.2 sorted) sorted) := by
    induction l with
    | nil => exact fun _ h => h
    | cons m rest ih => exact fun _ h => ih _ (inKeyOrder_insertMember h)
  exact run [] List.Pairwise.nil

/-- Members with distinct keys are put in order without a loss. -/
theorem sortMembers_perm (distinct : (l.map (·.1)).Nodup) : (sortMembers l).Perm l := by
  have run : ∀ sorted : List (String × α), ((l ++ sorted).map (·.1)).Nodup →
      (l.foldl (fun sorted m => insertMember m.1 m.2 sorted) sorted).Perm (l ++ sorted) := by
    clear distinct
    induction l with
    | nil => exact fun _ _ => List.Perm.refl _
    | cons m rest ih =>
      intro sorted distinct
      obtain ⟨new, ofRest⟩ := List.nodup_cons.mp distinct
      have inserted : (insertMember m.1 m.2 sorted).Perm (m :: sorted) :=
        insertMember_perm fun h => new (by simp [List.mem_map.mp h])
      have middle : (rest ++ insertMember m.1 m.2 sorted).Perm (m :: (rest ++ sorted)) :=
        (inserted.append_left rest).trans List.perm_middle
      exact (ih _ ((middle.map _).nodup_iff.mpr distinct)).trans middle
  have whole := run []
  rw [List.append_nil] at whole
  exact whole distinct

theorem eq_of_inKeyOrder_of_perm (h : InKeyOrder l) (h' : InKeyOrder l') (same : l.Perm l') :
    l = l' :=
  same.eq_of_pairwise (fun _ _ _ _ before after => absurd after before.asymm) h h'

theorem nodup_of_inKeyOrder (h : InKeyOrder l) : (l.map (·.1)).Nodup :=
  List.pairwise_map.mpr (h.imp fun before => before.ne)

/-- Members that are in order stay as they are. -/
theorem sortMembers_eq_self (h : InKeyOrder l) : sortMembers l = l :=
  eq_of_inKeyOrder_of_perm (inKeyOrder_sortMembers l) h (sortMembers_perm (nodup_of_inKeyOrder h))

/-- The same members come into the same order. -/
theorem sortMembers_eq_of_perm (distinct : (l.map (·.1)).Nodup) (same : l.Perm l') :
    sortMembers l = sortMembers l' := by
  have distinct' : (l'.map (·.1)).Nodup := (same.map _).nodup_iff.mp distinct
  exact eq_of_inKeyOrder_of_perm (inKeyOrder_sortMembers l) (inKeyOrder_sortMembers l')
    ((sortMembers_perm distinct).trans (same.trans (sortMembers_perm distinct').symm))

theorem lookup_cons_eq_ite (k : String) (m : String × α) (l : List (String × α)) :
    (m :: l).lookup k = if k = m.1 then some m.2 else l.lookup k := by
  obtain ⟨k', a⟩ := m
  by_cases h : k = k'
  · simp [h]
  · have hb : (k == k') = false := by simpa using h
    simp [List.lookup_cons, hb, h]

theorem lookup_insertMember (k : String) (a : α) (l : List (String × α)) (key : String) :
    (insertMember k a l).lookup key = if key = k then some a else l.lookup key := by
  induction l with
  | nil => exact lookup_cons_eq_ite key (k, a) []
  | cons m rest ih =>
    obtain ⟨k', a'⟩ := m
    rw [insertMember]
    by_cases same : k = k'
    · subst same
      rw [if_pos rfl, lookup_cons_eq_ite, lookup_cons_eq_ite]
      split_ifs <;> rfl
    rw [if_neg same]
    by_cases before : k < k'
    · rw [if_pos before, lookup_cons_eq_ite]
    · rw [if_neg before, lookup_cons_eq_ite, lookup_cons_eq_ite, ih]
      split_ifs with found late <;> first | rfl | exact absurd (late.symm.trans found) same

/-- Of members with equal keys the last one is kept. -/
theorem lookup_sortMembers_eq (l : List (String × α)) (k : String) :
    (sortMembers l).lookup k = l.reverse.lookup k := by
  have run : ∀ sorted : List (String × α),
      (l.foldl (fun sorted m => insertMember m.1 m.2 sorted) sorted).lookup k =
        (l.reverse.lookup k).or (sorted.lookup k) := by
    induction l with
    | nil => exact fun _ => rfl
    | cons m rest ih =>
      intro sorted
      rw [List.foldl_cons, ih, lookup_insertMember, List.reverse_cons, List.lookup_append,
        lookup_cons_eq_ite, Option.or_assoc]
      split_ifs <;> rfl
  exact (run []).trans Option.or_none

theorem lookup_sortMembers (distinct : (l.map (·.1)).Nodup) (k : String) :
    (sortMembers l).lookup k = l.lookup k :=
  (lookup_eq_of_perm distinct (sortMembers_perm distinct).symm k).symm

end Members

namespace Json

theorem distinctKeys_iff {α : Type} {l : List (String × α)} :
    distinctKeys l = true ↔ (l.map (·.1)).Nodup := by
  induction l with
  | nil => simp [distinctKeys]
  | cons m rest ih =>
    rw [distinctKeys, Bool.and_eq_true, ih, List.map_cons, List.nodup_cons]
    refine and_congr_left fun _ => ?_
    rw [Bool.not_eq_true', List.any_eq_false, List.mem_map, not_exists]
    exact forall_congr' fun m' => by rw [not_and, beq_iff_eq]

/-! ## Values in order -/

@[simp] theorem sortedItems_eq (items : List Json) : sortedItems items = items.map sorted := by
  induction items with
  | nil => rfl
  | cons item rest ih => rw [sortedItems, ih, List.map_cons]

@[simp] theorem sortedMembers_eq (members : List (String × Json)) :
    sortedMembers members = members.map fun m => (m.1, m.2.sorted) := by
  induction members with
  | nil => rfl
  | cons m rest ih => rw [sortedMembers, ih, List.map_cons]

mutual

/-- A value that is in order stays as it is. -/
theorem sorted_sorted : (v : Json) → v.sorted.sorted = v.sorted
  | .null | .bool _ | .number _ | .string _ => rfl
  | .array items => by
    rw [sorted, sorted, sorted_sortedItems items]
  | .object members => by
    have still : sortedMembers (sortMembers (sortedMembers members)) =
        sortMembers (sortedMembers members) := by
      rw [sortedMembers_eq (sortMembers _)]
      refine (List.map_congr_left fun m hm => ?_).trans (List.map_id _)
      rw [sorted_of_mem_sortedMembers members m (mem_sortMembers hm)]
      rfl
    rw [sorted, sorted, still, sortMembers_eq_self (inKeyOrder_sortMembers _)]

theorem sorted_sortedItems : (items : List Json) →
    sortedItems (sortedItems items) = sortedItems items
  | [] => rfl
  | item :: rest => by
    rw [sortedItems, sortedItems, sorted_sorted item, sorted_sortedItems rest]

theorem sorted_of_mem_sortedMembers : (members : List (String × Json)) →
    ∀ m ∈ sortedMembers members, m.2.sorted = m.2
  | [], m, h => by cases h
  | (key, value) :: rest, m, h => by
    rcases List.mem_cons.mp h with rfl | h
    · exact sorted_sorted value
    · exact sorted_of_mem_sortedMembers rest m h

end

theorem sorted_of_mem_array {items : List Json} (h : (array items).sorted = array items) :
    ∀ item ∈ items, item.sorted = item := by
  rw [sorted, array.injEq, sortedItems_eq] at h
  exact List.map_inj_left.mp (h.trans (List.map_id items).symm)

theorem sorted_of_mem_object {members : List (String × Json)}
    (h : (object members).sorted = object members) : ∀ m ∈ members, m.2.sorted = m.2 := by
  rw [sorted, object.injEq] at h
  intro m hm
  rw [← h] at hm
  exact sorted_of_mem_sortedMembers members m (mem_sortMembers hm)

/-- An object that is in order has its members in key order. -/
theorem inKeyOrder_of_sorted {members : List (String × Json)}
    (h : (object members).sorted = object members) : InKeyOrder members := by
  rw [sorted, object.injEq] at h
  rw [← h]
  exact inKeyOrder_sortMembers _

/-- Who asks a value in order for a known field of a record gets it in order. -/
theorem get?_sorted_of_record? {names : List String} {v : Json} {r : Record}
    (h : record? names v = some r) (name : String) (known : names.contains name = true) :
    v.sorted.get? name = (v.get? name).map sorted := by
  cases v with
  | object members =>
    rw [record?] at h
    split_ifs at h with distinct
    have hd := distinctKeys_iff.mp distinct
    -- Among the known members nothing is behind what is found first.
    have hr : members.reverse.lookup name = members.lookup name := by
      have hk := lookup_filter names.contains members name
      have hk' := lookup_filter names.contains members.reverse name
      rw [if_pos known] at hk hk'
      rw [← hk, ← hk', List.filter_reverse]
      exact (lookup_eq_of_perm hd (List.reverse_perm _).symm name).symm
    rw [sorted, get?, lookup_sortMembers_eq, sortedMembers_eq, ← List.map_reverse, lookup_map_snd,
      hr]
    rfl
  | array items => rfl
  | null | bool b | number n | string s => rfl

/-- A field of a record : the member with its key, or the item at its place. -/
def part? (names : List String) (name : String) : Json → Option Json
  | .object members => members.lookup name
  | .array items => (names.zip items).lookup name
  | _ => none

theorem Record.get?_eq_part? {names : List String} {v : Json} {r : Record} {name : String}
    (h : record? names v = some r) (known : names.contains name = true) :
    r.get? name = part? names name v := by
  cases v with
  | object members =>
    rw [record?] at h
    split_ifs at h
    obtain rfl := Option.some.inj h
    rw [Record.get?, lookup_filter names.contains members name, if_pos known]
    rfl
  | array items =>
    rw [record?] at h
    split_ifs at h
    obtain rfl := Option.some.inj h
    rfl
  | _ => cases h

/-- Who asks a record in order for a field gets it in order. -/
theorem part?_sorted {names : List String} {v : Json} {r : Record} {name : String}
    (h : record? names v = some r) (known : names.contains name = true) :
    part? names name v.sorted = (part? names name v).map sorted := by
  cases v with
  | object members => exact get?_sorted_of_record? h name known
  | array items =>
    rw [sorted, sortedItems_eq, part?, part?, List.zip_map_right]
    exact lookup_map_snd sorted _ name
  | _ => cases h

theorem item?_sorted (v : Json) (i : Nat) : v.sorted.item? i = (v.item? i).map sorted := by
  cases v with
  | array items => rw [sorted, sortedItems_eq, item?, item?, List.getElem?_map]
  | _ => rfl

/-! ## Plain values -/

mutual

/-- Whether no object in the value has a key twice, and every number in it is a whole one of
64 bits. -/
def isPlain : Json → Bool
  | .number (.whole i) => -9223372036854775808 ≤ i && i ≤ 18446744073709551615
  | .number (.binary _) => false
  | .array items => plainItems items
  | .object members => distinctKeys members && plainMembers members
  | _ => true

/-- Whether all items are plain. -/
def plainItems : List Json → Bool
  | [] => true
  | item :: rest => item.isPlain && plainItems rest

/-- Whether the values of all members are plain. -/
def plainMembers : List (String × Json) → Bool
  | [] => true
  | (_, value) :: rest => value.isPlain && plainMembers rest

end

theorem isPlain_array {items : List Json} :
    (array items).isPlain ↔ ∀ item ∈ items, item.isPlain := by
  rw [isPlain]
  induction items with
  | nil => simp [plainItems]
  | cons item rest ih => simp [plainItems, ih]

theorem isPlain_object {members : List (String × Json)} : (object members).isPlain ↔
    (members.map (·.1)).Nodup ∧ ∀ m ∈ members, m.2.isPlain := by
  rw [isPlain, Bool.and_eq_true, distinctKeys_iff]
  refine and_congr_right fun _ => ?_
  clear * -
  induction members with
  | nil => simp [plainMembers]
  | cons m rest ih => rw [plainMembers, Bool.and_eq_true, ih, List.forall_mem_cons]

theorem isPlain_of_get? {v u : Json} (plain : v.isPlain) {key : String} (h : v.get? key = some u) :
    u.isPlain := by
  cases v with
  | object members => exact (isPlain_object.mp plain).2 _ (mem_of_lookup h)
  | _ => cases h

/-- Who asks a value in order for a member gets it in order. -/
theorem get?_sorted {v : Json} (plain : v.isPlain) (key : String) :
    v.sorted.get? key = (v.get? key).map sorted := by
  cases v with
  | object members =>
    have distinct : ((sortedMembers members).map (·.1)).Nodup := by
      rw [sortedMembers_eq, List.map_map]
      exact (isPlain_object.mp plain).1
    rw [sorted, get?, lookup_sortMembers distinct, sortedMembers_eq, lookup_map_snd]
    rfl
  | _ => rfl

end Json

end Switchboard
