import Mathlib.Data.List.Forall2
import Switchboard.Proofs.Json.Sorted
import Switchboard.Proofs.Number.Nearest

/-!
# Values that survive

A value is read as something (`read`), which is then written (`write`). `Survives` says three
things of the way there and back, for every plain value that is read at all : what is written
is read as the same again, `kept` holds of the value and the one that is written, and null is
written for null only. The last of them is what makes it possible to leave a field out : a
field that is null counts as absent, so that a value in it must not turn into null.

What is kept differs from one kind of value to the other. A text, a number or a name is kept
if it is read as the same (`Alike`), a free value if it is the same value (`Verbatim`), a list
if its items are kept at their places (`KeepsItems`). For a free value the order of its members
is lost, so that what is read a second time is read from sorted members : a reader must be
blind to their order (`IsBlind`).
-/

namespace Switchboard.Json

variable {α : Type}

/-! ## Readers and writers -/

/-- Both values are read as the same. -/
def Alike (read : Json → Option α) (v w : Json) : Prop := read w = read v

/-- The one value is the other one with its members in order. -/
def Verbatim (v w : Json) : Prop := w = v.sorted

/-- What is read of a plain value is written so that the same is read again, `kept` says what
the value and the one that is written have in common, and null is written for null only. -/
structure Survives (read : Json → Option α) (write : α → Json) (kept : Json → Json → Prop) :
    Prop where
  again : ∀ {v a}, v.isPlain → read v = some a → read (write a) = some a
  kept : ∀ {v a}, v.isPlain → read v = some a → kept v (write a)
  notNull : ∀ {v a}, v.isPlain → read v = some a → write a = .null → v = .null

/-- A reader does not see the order of members. -/
def IsBlind (read : Json → Option α) : Prop := ∀ v, v.isPlain → read v.sorted = read v

section Survives

variable {read : Json → Option α} {write : α → Json} {kept kept' : Json → Json → Prop}

theorem Survives.alike (h : Survives read write kept) {v : Json} {a : α} (plain : v.isPlain)
    (ha : read v = some a) : Alike read v (write a) := (h.again plain ha).trans ha.symm

theorem Survives.imp (h : Survives read write kept)
    (weaker : ∀ v w, Alike read v w → kept v w → kept' v w) : Survives read write kept' :=
  ⟨h.again, fun plain ha => weaker _ _ (h.alike plain ha) (h.kept plain ha), h.notNull⟩

/-- For a value without parts it is enough that it is read again. -/
theorem survives_alike (h : ∀ v a, v.isPlain → read v = some a →
    read (write a) = some a ∧ (write a = .null → v = .null)) :
    Survives read write (Alike read) :=
  ⟨fun plain ha => (h _ _ plain ha).1, fun plain ha => (h _ _ plain ha).1.trans ha.symm,
    fun plain ha => (h _ _ plain ha).2⟩

/-- A record is written as an object. -/
theorem survives_record (object : ∀ a, (write a).isObject)
    (h : ∀ v a, v.isPlain → read v = some a → read (write a) = some a ∧ kept v (write a)) :
    Survives read write kept :=
  ⟨fun plain ha => (h _ _ plain ha).1, fun plain ha => (h _ _ plain ha).2,
    fun {_ a} _ _ null => absurd (object a) (by rw [null]; decide)⟩

theorem survives_alike_record (object : ∀ a, (write a).isObject)
    (h : ∀ v a, v.isPlain → read v = some a → read (write a) = some a) :
    Survives read write (Alike read) :=
  survives_record object fun v a plain ha => ⟨h v a plain ha, (h v a plain ha).trans ha.symm⟩

end Survives

/-! ### Values without parts -/

theorem survives_string : Survives string? .string (Alike string?) :=
  survives_alike fun _ _ _ _ => ⟨rfl, by simp⟩

theorem survives_bool : Survives bool? .bool (Alike bool?) :=
  survives_alike fun _ _ _ _ => ⟨rfl, by simp⟩

theorem survives_natUpTo (bound : Nat) :
    Survives (natUpTo? bound) .nat (Alike (natUpTo? bound)) := by
  refine survives_alike fun v a _ h => ⟨?_, nofun⟩
  unfold natUpTo? at h
  split at h
  · split_ifs at h with small
    cases h
    exact if_pos small
  · cases h

theorem survives_u32 : Survives u32? .nat (Alike u32?) := survives_natUpTo u32Max

theorem survives_u64 : Survives u64? .nat (Alike u64?) := survives_natUpTo u64Max

theorem survives_real32 : Survives real32? ofReal32 (Alike real32?) := by
  refine survives_alike fun v r plain h => ?_
  cases v with
  | number n =>
    cases n with
    | binary x => cases plain
    | whole i =>
      have range : i.natAbs < 2 ^ 64 := by
        simp only [isPlain, Bool.and_eq_true, decide_eq_true_eq] at plain
        omega
      obtain ⟨again, y, written⟩ := real32?_again range h
      exact ⟨again, fun null => by rw [written] at null; cases null⟩
  | _ => cases h

/-- A free value is put in order. -/
theorem survives_free : Survives free? id Verbatim where
  again _ h := by
    cases h
    exact congrArg some (sorted_sorted _)
  kept _ h := by
    cases h
    rfl
  notNull {v a} _ h null := by
    cases h
    cases v with
    | null => rfl
    | _ => cases null

theorem isBlind_string : IsBlind string? := fun v _ => by cases v <;> rfl

theorem isBlind_bool : IsBlind bool? := fun v _ => by cases v <;> rfl

theorem isBlind_u32 : IsBlind u32? := fun v _ => by cases v <;> rfl

theorem isBlind_free : IsBlind free? := fun v _ => congrArg some (sorted_sorted v)

/-! ### Lists -/

theorem mapM_eq_some_iff {β γ : Type} {f : β → Option γ} {l : List β} {l' : List γ} :
    l.mapM f = some l' ↔ List.Forall₂ (fun b c => f b = some c) l l' := by
  induction l generalizing l' with
  | nil => cases l' <;> simp
  | cons b rest ih =>
    rw [List.mapM_cons]
    cases l' with
    | nil => cases f b <;> cases rest.mapM f <;> simp
    | cons c rest' =>
      rw [List.forall₂_cons, ← ih]
      cases f b <;> cases rest.mapM f <;> simp

/-- The items of the one value are in the other, at the same places. -/
def KeepsItems (kept : Json → Json → Prop) (v w : Json) : Prop :=
  ∀ i u, v.item? i = some u → ∃ u', w.item? i = some u' ∧ kept u u'

section List

variable {read : Json → Option α} {write : α → Json} {kept : Json → Json → Prop}

theorem items_of_listOf? {v : Json} {as : List α} (plain : v.isPlain)
    (h : listOf? read v = some as) : ∃ us, v = .array us ∧
      List.Forall₂ (fun u a => u.isPlain ∧ read u = some a) us as := by
  cases v with
  | array us =>
    exact ⟨us, rfl, (List.forall₂_and_left _ _).mpr ⟨isPlain_array.mp plain, mapM_eq_some_iff.mp h⟩⟩
  | _ => cases h

theorem Survives.items (s : Survives read write kept) :
    Survives (listOf? read) (ofList write) (KeepsItems kept) where
  again {v as} plain h := by
    obtain ⟨us, -, items⟩ := items_of_listOf? plain h
    refine mapM_eq_some_iff.mpr (List.forall₂_map_left_iff.mpr ?_)
    clear plain h
    induction items with
    | nil => exact .nil
    | cons item _ ih => exact .cons (s.again item.1 item.2) ih
  kept {v as} plain h := by
    obtain ⟨us, rfl, items⟩ := items_of_listOf? plain h
    intro i u hu
    change us[i]? = some u at hu
    change ∃ u', (as.map write)[i]? = some u' ∧ kept u u'
    clear plain h
    induction items generalizing i with
    | nil => cases hu
    | cons item _ ih =>
      cases i with
      | zero =>
        cases hu
        exact ⟨_, rfl, s.kept item.1 item.2⟩
      | succ i => exact ih i hu
  notNull _ _ := nofun

/-- Both are lists of the same, and the items of the one are in the other. -/
def KeepsList (read : Json → Option α) (kept : Json → Json → Prop) (v w : Json) : Prop :=
  Alike (listOf? read) v w ∧ KeepsItems kept v w

theorem Survives.list (s : Survives read write kept) :
    Survives (listOf? read) (ofList write) (KeepsList read kept) :=
  s.items.imp fun _ _ alike kept => ⟨alike, kept⟩

/-- What may be one text or a list of items. -/
structure IsTextOr {β : Type} (read : Json → Option α) (write : α → Json) (read' : Json → Option β)
    (write' : β → Json) (text : String → β) (list : List α → β) : Prop where
  readText : ∀ s, read' (.string s) = some (text s)
  readList : ∀ v, v.string? = none → read' v = (listOf? read v).map list
  writeText : ∀ s, write' (text s) = .string s
  writeList : ∀ as, write' (list as) = ofList write as

theorem Survives.textOr {β : Type} {read' : Json → Option β} {write' : β → Json}
    {text : String → β} {list : List α → β} (s : Survives read write kept)
    (h : IsTextOr read write read' write' text list) :
    Survives read' write' fun v w => Alike read' v w ∧ KeepsItems kept v w := by
  have cases : ∀ {v b}, v.isPlain → read' v = some b →
      (∃ t, v = .string t ∧ b = text t) ∨
        ∃ as, v.string? = none ∧ listOf? read v = some as ∧ b = list as := by
    intro v b plain hb
    cases hv : v.string? with
    | some t =>
      cases v with
      | string t' =>
        rw [h.readText] at hb
        cases hb
        exact Or.inl ⟨t', rfl, rfl⟩
      | _ => cases hv
    | none =>
      rw [h.readList v hv] at hb
      obtain ⟨as, has, rfl⟩ := Option.map_eq_some_iff.mp hb
      exact Or.inr ⟨as, rfl, has, rfl⟩
  refine Survives.imp ⟨fun {v b} plain hb => ?_, fun {v b} plain hb => ?_,
    fun {v b} plain hb null => ?_⟩ fun _ _ alike kept => ⟨alike, kept⟩
  · rcases cases plain hb with ⟨t, -, rfl⟩ | ⟨as, -, has, rfl⟩
    · rw [h.writeText, h.readText]
    · rw [h.writeList, h.readList _ rfl, s.items.again plain has]
      rfl
  · rcases cases plain hb with ⟨t, rfl, rfl⟩ | ⟨as, -, has, rfl⟩
    · exact nofun
    · rw [h.writeList]
      exact s.items.kept plain has
  · rcases cases plain hb with ⟨t, -, rfl⟩ | ⟨as, -, -, rfl⟩
    · rw [h.writeText] at null
      cases null
    · rw [h.writeList] at null
      cases null

theorem IsBlind.list (blind : IsBlind read) : IsBlind (listOf? read) := by
  intro v plain
  cases v with
  | array us =>
    rw [sorted, sortedItems_eq]
    change (us.map sorted).mapM read = us.mapM read
    replace plain := isPlain_array.mp plain
    induction us with
    | nil => rfl
    | cons u rest ih =>
      obtain ⟨first, plain⟩ := List.forall_mem_cons.mp plain
      rw [List.map_cons, List.mapM_cons, List.mapM_cons, blind u first, ih plain]
  | _ => rfl

end List

/-! ## Names -/

theorem sorted_eq_null {v : Json} : v.sorted = .null ↔ v = .null := by
  cases v <;> simp [sorted]

theorem sortMembers_length {β : Type} {l : List (String × β)} (distinct : (l.map (·.1)).Nodup) :
    (sortMembers l).length = l.length :=
  (sortMembers_perm distinct).length_eq

theorem isBlind_name {isNothing : Json → Bool}
    (blind : ∀ v, v.isPlain → isNothing v.sorted = isNothing v) (names : List String) :
    IsBlind (name? isNothing names) := by
  intro v plain
  cases v with
  | object members =>
    obtain ⟨distinct, values⟩ := isPlain_object.mp plain
    match members, distinct, values with
    | [], _, _ => rfl
    | [(key, u)], _, values =>
      have hu := blind u (values (key, u) List.mem_cons_self)
      change (if isNothing u.sorted && names.contains key then some key else none) = _
      rw [hu]
      rfl
    | m :: m' :: rest, distinct, _ =>
      have length : (sortMembers (sortedMembers (m :: m' :: rest))).length = rest.length + 2 := by
        rw [sortMembers_length (by rwa [sortedMembers_eq, List.map_map]), sortedMembers_eq]
        simp
      rw [sorted]
      match sortMembers (sortedMembers (m :: m' :: rest)), length with
      | _ :: _ :: _, _ => rfl
  | _ => rfl

theorem sorted_eq_empty {v : Json} (plain : v.isPlain) :
    v.sorted = .object [] ↔ v = .object [] := by
  cases v with
  | object members =>
    have length := sortMembers_length (l := sortedMembers members)
      (by rw [sortedMembers_eq, List.map_map]; exact (isPlain_object.mp plain).1)
    rw [sorted, object.injEq, object.injEq, ← List.length_eq_zero_iff, length, sortedMembers_eq,
      List.length_map, List.length_eq_zero_iff]
  | _ => exact ⟨nofun, nofun⟩

theorem isNull_sorted (v : Json) : v.sorted.isNull = v.isNull := by
  cases v <;> rfl

end Switchboard.Json
