import Switchboard.Proofs.Json.Survival

/-!
# Records that are read and written again

A record is read from an object with any members, and written as an object with the members
that its writer lists, some of which may be left out (`ofFields`). `Passage` relates the two
objects and the two records that are read of them. Each way of reading a field
(`Passage.required`, `.optional`, `.orDefault`, `.nullable`) has the same consequences : if
what is read of the field survives and is written under its name, the field is read as the same
again, and its member is kept unless it is null.

For a reader of a record one then goes along its fields in the order in which it reads them. An
open record (`exists_passage_open`) keeps the members with other keys as well.
-/

namespace Switchboard.Json

variable {α : Type}

/-! ## Records -/

/-- A step of a reader that succeeds. -/
theorem bind_eq_some_of {β γ : Type} {x : Option β} {f : β → Option γ} {b : β} {c : γ}
    (h : x = some b) (h' : f b = some c) : (x >>= f) = some c := by
  rw [h]
  exact h'

/-- A member of the one value that is not null is in the other too. -/
def KeepsMember (name : String) (kept : Json → Json → Prop) (v w : Json) : Prop :=
  ∀ u, v.get? name = some u → u ≠ .null → ∃ u', w.get? name = some u' ∧ kept u u'

theorem record?_object {names : List String} {members : List (String × Json)}
    (distinct : (members.map (·.1)).Nodup) : record? names (.object members) =
      some ⟨members.filter fun m => names.contains m.1, false⟩ := by
  have known : distinctKeys (members.filter fun m => names.contains m.1) = true :=
    distinctKeys_iff.mpr (distinct.sublist (List.filter_sublist.map _))
  simp only [record?, known, if_true]

theorem Record.get?_object {names : List String} {members : List (String × Json)} (name : String) :
    Record.get? ⟨members.filter fun m => names.contains m.1, false⟩ name =
      if names.contains name then (object members).get? name else none :=
  lookup_filter names.contains members name

/-- The record of a value in order : its fields are in order. -/
structure Record.SortsTo (r r' : Record) : Prop where
  get? : ∀ name, r'.get? name = (r.get? name).map sorted
  plain : ∀ {name u}, r.get? name = some u → u.isPlain

/-- A value and the same value in order are both no records, or both are. -/
theorem record?_sorted {v : Json} (plain : v.isPlain) (names : List String) :
    record? names v = none ∧ record? names v.sorted = none ∨
      ∃ r r', record? names v = some r ∧ record? names v.sorted = some r' ∧ r.SortsTo r' := by
  cases v with
  | object members =>
    obtain ⟨distinct, values⟩ := isPlain_object.mp plain
    have sorts : sorted (.object members) = .object (sortMembers (sortedMembers members)) := rfl
    have distinct' := nodup_of_inKeyOrder (inKeyOrder_sortMembers (sortedMembers members))
    refine Or.inr ⟨_, _, record?_object distinct, record?_object distinct', fun name => ?_,
      fun {name u} h => ?_⟩
    · rw [Record.get?_object, Record.get?_object, ← sorts, get?_sorted plain]
      split_ifs <;> rfl
    · rw [Record.get?_object] at h
      split_ifs at h
      exact isPlain_of_get? plain h
  | array items =>
    have plain := isPlain_array.mp plain
    rw [sorted, sortedItems_eq]
    simp only [record?, List.length_map]
    split_ifs
    · refine Or.inr ⟨_, _, rfl, rfl, fun name => ?_, fun {name u} h => ?_⟩
      · rw [Record.get?, Record.get?, List.zip_map_right]
        exact lookup_map_snd sorted _ name
      · exact plain u (List.of_mem_zip (mem_of_lookup h)).2
    · exact Or.inl ⟨rfl, rfl⟩
  | _ => exact Or.inl ⟨rfl, rfl⟩

/-- A reader that only asks for fields does not see their order. -/
theorem isBlind_record {names : List String} {f : Record → Option α}
    (h : ∀ r r', r.SortsTo r' → f r' = f r) : IsBlind fun v => (record? names v).bind f := by
  intro v plain
  dsimp only
  rcases record?_sorted plain names with ⟨none, none'⟩ | ⟨r, r', hr, hr', sorts⟩
  · rw [none, none']
  · rw [hr, hr']
    exact h r r' sorts

section SortsTo

variable {r r' : Record} {read : Json → Option α}

theorem Record.SortsTo.required (s : r.SortsTo r') (blind : IsBlind read) (name : String) :
    r'.required name read = r.required name read := by
  rw [Record.required, Record.required, s.get?]
  cases h : r.get? name with
  | none => rfl
  | some u => exact blind u (s.plain h)

theorem Record.optional_some {name : String} {u : Json} (h : r.get? name = some u) :
    r.optional name read = if u = .null then some none else (read u).map some := by
  unfold Record.optional
  rw [h]
  cases u <;> rfl

theorem Record.SortsTo.optional (s : r.SortsTo r') (blind : IsBlind read) (name : String) :
    r'.optional name read = r.optional name read := by
  have h' := s.get? name
  cases h : r.get? name with
  | none =>
    rw [h] at h'
    rw [Record.optional, Record.optional, h, h']
    rfl
  | some u =>
    rw [h] at h'
    simp only [Record.optional_some h, Record.optional_some h', sorted_eq_null,
      blind u (s.plain h)]

theorem Record.SortsTo.orDefault (s : r.SortsTo r') (blind : IsBlind read) (name : String)
    (default : α) : r'.orDefault name default read = r.orDefault name default read := by
  rw [Record.orDefault, Record.orDefault, s.get?]
  cases h : r.get? name with
  | none => rfl
  | some u => exact blind u (s.plain h)

end SortsTo

/-! ### Written records -/

/-- What a field of a written object says about a key. -/
def fieldAt (name : String) (field : Option (String × Json)) : Option Json :=
  field.bind fun m => if name = m.1 then some m.2 else none

-- the proof is not by unfolding, which simp would try again at each use
@[simp] theorem fieldAt_field (name key : String) (u : Json) :
    fieldAt name (field key u) = if name = key then some u else none := by
  simp [fieldAt, field]

@[simp] theorem fieldAt_fieldIf {β : Type} (name key : String) (write : β → Json) (o : Option β) :
    fieldAt name (fieldIf key write o) = if name = key then o.map write else none := by
  cases o <;> simp [fieldAt, fieldIf]

@[simp] theorem fieldAt_ite (name : String) (p : Prop) [Decidable p]
    (f g : Option (String × Json)) :
    fieldAt name (if p then f else g) = if p then fieldAt name f else fieldAt name g := by
  split_ifs <;> rfl

@[simp] theorem fieldAt_none (name : String) : fieldAt name none = none := rfl

@[simp] theorem get?_ofFields_nil (name : String) : (ofFields []).get? name = none := rfl

@[simp] theorem get?_ofFields_cons (name : String) (f : Option (String × Json))
    (fs : List (Option (String × Json))) :
    (ofFields (f :: fs)).get? name = (fieldAt name f).or ((ofFields fs).get? name) := by
  cases f with
  | none => rfl
  | some m =>
    obtain ⟨key, u⟩ := m
    change List.lookup name ((key, u) :: fs.filterMap id) = _
    rw [List.lookup_cons]
    by_cases h : name = key
    · simp [fieldAt, h]
    · simp only [fieldAt, Option.bind_some, h, if_false, beq_eq_false_iff_ne.mpr h]
      rfl

/-- No key is written twice. -/
def WrittenOnce (fs : List (Option (String × Json))) : Prop :=
  ((fs.filterMap id).map (·.1)).Nodup

@[simp] theorem writtenOnce_nil : WrittenOnce [] := List.nodup_nil

@[simp] theorem writtenOnce_none {fs : List (Option (String × Json))} :
    WrittenOnce (none :: fs) ↔ WrittenOnce fs := Iff.rfl

theorem writtenOnce_some {m : String × Json} {fs : List (Option (String × Json))} :
    WrittenOnce (some m :: fs) ↔ (ofFields fs).get? m.1 = none ∧ WrittenOnce fs := by
  have key : (ofFields fs).get? m.1 = none ↔ m.1 ∉ (fs.filterMap id).map (·.1) := by
    change List.lookup m.1 (fs.filterMap id) = none ↔ _
    rw [List.lookup_eq_none_iff, List.mem_map, not_exists]
    refine forall_congr' fun m' => ?_
    rw [not_and]
    refine imp_congr_right fun _ => ?_
    rw [bne_iff_ne, ne_comm]
  rw [key]
  exact List.nodup_cons

@[simp] theorem writtenOnce_field {key : String} {u : Json} {fs : List (Option (String × Json))} :
    WrittenOnce (field key u :: fs) ↔ (ofFields fs).get? key = none ∧ WrittenOnce fs :=
  writtenOnce_some

@[simp] theorem writtenOnce_fieldIf {β : Type} {key : String} {write : β → Json} {o : Option β}
    {fs : List (Option (String × Json))} : WrittenOnce (fieldIf key write o :: fs) ↔
      (o.isSome → (ofFields fs).get? key = none) ∧ WrittenOnce fs := by
  cases o with
  | none => simp [fieldIf]
  | some b =>
    simp only [Option.isSome_some, forall_const]
    exact writtenOnce_some

@[simp] theorem writtenOnce_ite {p : Prop} [Decidable p] {f g : Option (String × Json)}
    {fs : List (Option (String × Json))} : WrittenOnce ((if p then f else g) :: fs) ↔
      if p then WrittenOnce (f :: fs) else WrittenOnce (g :: fs) := by
  split_ifs <;> rfl

/-- A value that is read as a record, and one that is written for it. -/
structure Passage (names : List String) (v : Json) (r : Record) (w : Json) (r' : Record) :
    Prop where
  read : ∀ {name u}, names.contains name → v.get? name = some u → r.get? name = some u
  plain : ∀ {name u}, r.get? name = some u → u.isPlain
  again : ∀ {name}, names.contains name → r'.get? name = w.get? name

/-- A record that is written with distinct keys is read again. -/
theorem exists_passage {names : List String} {v w : Json} {r : Record} (plain : v.isPlain)
    (hr : record? names v = some r) {fs : List (Option (String × Json))} (hw : w = ofFields fs)
    (once : WrittenOnce fs) : ∃ r', record? names w = some r' ∧ Passage names v r w r' := by
  subst hw
  refine ⟨_, record?_object once, ?_, ?_, fun {name} known => ?_⟩
  · intro name u known hu
    cases v with
    | object members =>
      rw [record?_object (isPlain_object.mp plain).1, Option.some.injEq] at hr
      rw [← hr, Record.get?_object, if_pos known, hu]
    | _ => cases hu
  · intro name u hu
    rcases record?_sorted plain names with ⟨h, -⟩ | ⟨r₁, r', h, -, sorts⟩
    · rw [h] at hr
      cases hr
    · rw [h] at hr
      cases hr
      exact sorts.plain hu
  · rw [Record.get?_object, if_pos known]
    rfl

section Passage

variable {names : List String} {v w : Json} {r r' : Record} {name : String}
  {read : Json → Option α} {write : α → Json} {kept : Json → Json → Prop}

/-- A field that must be there. -/
theorem Passage.required (c : Passage names v r w r') (known : names.contains name)
    (s : Survives read write kept) {a : α} (ha : r.required name read = some a)
    (written : w.get? name = some (write a)) :
    r'.required name read = some a ∧ KeepsMember name kept v w := by
  obtain ⟨u, hu, ha⟩ := Option.bind_eq_some_iff.mp ha
  refine ⟨?_, fun u' hu' _ => ⟨_, written, ?_⟩⟩
  · rw [Record.required, c.again known, written]
    exact s.again (c.plain hu) ha
  · cases hu.symm.trans (c.read known hu')
    exact s.kept (c.plain hu) ha

theorem Record.optional_eq_some {o : Option α} (h : r.optional name read = some o) :
    o = none ∧ (∀ u, r.get? name = some u → u = .null) ∨
      ∃ u a, o = some a ∧ r.get? name = some u ∧ u ≠ .null ∧ read u = some a := by
  cases hu : r.get? name with
  | none =>
    rw [Record.optional, hu] at h
    cases h
    exact Or.inl ⟨rfl, nofun⟩
  | some u =>
    rw [Record.optional_some hu] at h
    split_ifs at h with null
    · cases h
      exact Or.inl ⟨rfl, fun u' e => by cases e; exact null⟩
    · obtain ⟨a, ha, rfl⟩ := Option.map_eq_some_iff.mp h
      exact Or.inr ⟨u, a, rfl, rfl, null, ha⟩

/-- A field that may be absent or null, and is written in either way then. -/
theorem Passage.optional (c : Passage names v r w r') (known : names.contains name)
    (s : Survives read write kept) {o : Option α} (ho : r.optional name read = some o)
    (written : w.get? name = o.map write ∨ w.get? name = some (orNull write o)) :
    r'.optional name read = some o ∧ KeepsMember name kept v w := by
  rcases Record.optional_eq_some ho with ⟨rfl, null⟩ | ⟨u, a, rfl, hu, notNull, ha⟩
  · refine ⟨?_, fun u hu notNull => absurd (null u (c.read known hu)) notNull⟩
    rw [Record.optional, c.again known]
    rcases written with h | h <;> rw [h] <;> rfl
  · have written : w.get? name = some (write a) := by
      rcases written with h | h <;> exact h
    refine ⟨?_, fun u' hu' _ => ⟨_, written, ?_⟩⟩
    · rw [Record.optional_some ((c.again known).trans written),
        if_neg fun h => notNull (s.notNull (c.plain hu) ha h), s.again (c.plain hu) ha]
      rfl
    · cases hu.symm.trans (c.read known hu')
      exact s.kept (c.plain hu) ha

/-- A field that may be absent, and is written with its default then. -/
theorem Passage.orDefault (c : Passage names v r w r') (known : names.contains name)
    (s : Survives read write kept) {default a : α}
    (default_again : read (write default) = some default)
    (ha : r.orDefault name default read = some a) (written : w.get? name = some (write a)) :
    r'.orDefault name default read = some a ∧ KeepsMember name kept v w := by
  rw [Record.orDefault, c.again known, written]
  rw [Record.orDefault] at ha
  cases hu : r.get? name with
  | none =>
    rw [hu] at ha
    cases ha
    refine ⟨default_again, fun u hu' _ => ?_⟩
    cases hu.symm.trans (c.read known hu')
  | some u =>
    rw [hu] at ha
    refine ⟨s.again (c.plain hu) ha, fun u' hu' _ => ⟨_, written, ?_⟩⟩
    cases hu.symm.trans (c.read known hu')
    exact s.kept (c.plain hu) ha

/-- A field that may be absent, and may be left out if it has its default. -/
theorem Passage.orDefault_omitted (c : Passage names v r w r') (known : names.contains name)
    (s : Survives read write kept) {default a : α}
    (default_again : read (write default) = some default)
    (ha : r.orDefault name default read = some a)
    (written : w.get? name = some (write a) ∨ w.get? name = none ∧ a = default) :
    r'.orDefault name default read = some a := by
  rcases written with written | ⟨omitted, rfl⟩
  · exact (c.orDefault known s default_again ha written).1
  · rw [Record.orDefault, c.again known, omitted]

/-- A field with a value may be null just as an optional one. -/
theorem Record.nullable_of_some {u : Json} (h : r.get? name = some u) :
    r.nullable name read = r.optional name read := by
  unfold Record.nullable Record.optional
  rw [h]
  cases u <;> rfl

/-- A field that may be null, and is always written. -/
theorem Passage.nullable (c : Passage names v r w r') (known : names.contains name)
    (s : Survives read write kept) {o : Option α} (ho : r.nullable name read = some o)
    (written : w.get? name = some (orNull write o)) :
    r'.nullable name read = some o ∧ KeepsMember name kept v w := by
  have ho : r.optional name read = some o := by
    cases hu : r.get? name with
    | none =>
      rw [Record.nullable, hu] at ho
      rw [Record.optional, hu]
      split_ifs at ho
      exact ho
    | some u => rwa [← Record.nullable_of_some hu]
  rw [Record.nullable_of_some ((c.again known).trans written)]
  exact c.optional known s ho (Or.inr written)

end Passage

/-! ## Open records -/

theorem get?_ofFields_append (name : String) (fs gs : List (Option (String × Json))) :
    (ofFields (fs ++ gs)).get? name = ((ofFields fs).get? name).or ((ofFields gs).get? name) := by
  induction fs with
  | nil => rfl
  | cons f fs ih =>
    rw [List.cons_append, get?_ofFields_cons, get?_ofFields_cons, ih, Option.or_assoc]

/-- The members of an open record that are no fields of it. -/
structure OtherMembers (names : List String) (v : Json) (extra : List (String × Json)) : Prop where
  ordered : InKeyOrder extra
  sorted : ∀ m ∈ extra, m.2.sorted = m.2
  unknown : ∀ m ∈ extra, names.contains m.1 = false
  lookup : ∀ {name u}, names.contains name = false → v.get? name = some u →
    extra.lookup name = some u.sorted

/-- The members with other keys than the given ones, as they are kept. -/
def otherMembers (names : List String) (members : List (String × Json)) : List (String × Json) :=
  sortMembers ((members.filter fun m => !names.contains m.1).map fun m => (m.1, m.2.sorted))

theorem openRecord?_object (names : List String) (members : List (String × Json)) :
    openRecord? names (.object members) =
      (record? names (.object members)).map fun r => (r, otherMembers names members) := by
  rw [openRecord?]
  cases record? names (.object members) <;> rfl

theorem otherMembers_spec {names : List String} {members : List (String × Json)}
    (distinct : (members.map (·.1)).Nodup) :
    OtherMembers names (.object members) (otherMembers names members) := by
  have distinct' : (((members.filter fun m => !names.contains m.1).map
      fun m => (m.1, m.2.sorted)).map (·.1)).Nodup := by
    rw [List.map_map]
    exact distinct.sublist (List.filter_sublist.map _)
  refine ⟨inKeyOrder_sortMembers _, fun m hm => ?_, fun m hm => ?_, fun {name u} unknown hu => ?_⟩
  · obtain ⟨m', -, rfl⟩ := List.mem_map.mp (mem_sortMembers hm)
    exact sorted_sorted m'.2
  · obtain ⟨m', hm', rfl⟩ := List.mem_map.mp (mem_sortMembers hm)
    simpa using (List.mem_filter.mp hm').2
  · rw [get?] at hu
    rw [otherMembers, lookup_sortMembers distinct', lookup_map_snd,
      lookup_filter (fun name => !names.contains name), unknown, hu]
    rfl

theorem exists_of_openRecord? {names : List String} {v : Json} {r : Record}
    {extra : List (String × Json)} (plain : v.isPlain)
    (h : openRecord? names v = some (r, extra)) :
    record? names v = some r ∧ OtherMembers names v extra := by
  cases v with
  | object members =>
    rw [openRecord?_object] at h
    obtain ⟨r', hr, e⟩ := Option.map_eq_some_iff.mp h
    cases e
    exact ⟨hr, otherMembers_spec (isPlain_object.mp plain).1⟩
  | _ => cases h

/-- The other members are the same for the members in order. -/
theorem otherMembers_sorted {names : List String} {members : List (String × Json)}
    (distinct : (members.map (·.1)).Nodup) :
    otherMembers names (sortMembers (sortedMembers members)) = otherMembers names members := by
  have distinct' : ((sortedMembers members).map (·.1)).Nodup := by
    rwa [sortedMembers_eq, List.map_map]
  have same := ((sortMembers_perm distinct').filter fun m => !names.contains m.1).map
    fun m => (m.1, m.2.sorted)
  have twice : ((sortedMembers members).filter fun m => !names.contains m.1).map
        (fun m => (m.1, m.2.sorted)) =
      (members.filter fun m => !names.contains m.1).map fun m => (m.1, m.2.sorted) := by
    rw [sortedMembers_eq, List.filter_map, List.map_map]
    refine List.map_congr_left fun m _ => ?_
    simp only [Function.comp_apply, sorted_sorted]
  rw [twice] at same
  refine (sortMembers_eq_of_perm ?_ same.symm).symm
  rw [List.map_map]
  exact distinct.sublist (List.filter_sublist.map _)

/-- Members that are kept beside the fields are kept again. -/
theorem OtherMembers.again {names : List String} {v : Json} {extra known : List (String × Json)}
    (others : OtherMembers names v extra) (h : ∀ m ∈ known, names.contains m.1) :
    otherMembers names (known ++ extra) = extra := by
  have left : (known ++ extra).filter (fun m => !names.contains m.1) = extra := by
    rw [List.filter_append, List.filter_eq_nil_iff.mpr, List.filter_eq_self.mpr, List.nil_append]
    · exact fun m hm => by rw [others.unknown m hm]; rfl
    · exact fun m hm => by rw [h m hm]; decide
  have values : extra.map (fun m => (m.1, m.2.sorted)) = extra :=
    (List.map_congr_left fun m hm => by rw [others.sorted m hm]; rfl).trans (List.map_id _)
  rw [otherMembers, left, values, sortMembers_eq_self others.ordered]

/-- Only fields with known keys are written. -/
def KeysIn (names : List String) (fs : List (Option (String × Json))) : Prop :=
  ∀ f ∈ fs, ∀ m, f = some m → names.contains m.1

@[simp] theorem keysIn_nil (names : List String) : KeysIn names [] := nofun

@[simp] theorem keysIn_field {names : List String} {key : String} {u : Json}
    {fs : List (Option (String × Json))} :
    KeysIn names (field key u :: fs) ↔ names.contains key ∧ KeysIn names fs := by
  refine List.forall_mem_cons.trans (and_congr_left fun _ => ⟨fun h => h _ rfl, fun h m e => ?_⟩)
  cases e
  exact h

@[simp] theorem keysIn_fieldIf {β : Type} {names : List String} {key : String}
    {write : β → Json} {o : Option β} {fs : List (Option (String × Json))} :
    KeysIn names (fieldIf key write o :: fs) ↔
      (o.isSome → names.contains key) ∧ KeysIn names fs := by
  refine List.forall_mem_cons.trans (and_congr_left fun _ => ?_)
  cases o with
  | none => exact ⟨fun _ h => Bool.noConfusion h, fun _ _ e => absurd e nofun⟩
  | some b =>
    refine ⟨fun h _ => h _ rfl, fun h m e => ?_⟩
    cases e
    exact h rfl

/-- So is an open one, together with its other members : they are written behind the fields,
and found under their keys. -/
theorem exists_passage_open {names : List String} {v w : Json} {r : Record}
    {extra : List (String × Json)} (plain : v.isPlain)
    (h : openRecord? names v = some (r, extra)) {fs : List (Option (String × Json))}
    (hw : w = ofFields (fs ++ extra.map some)) (once : WrittenOnce fs)
    (known : KeysIn names fs) :
    ∃ r', openRecord? names w = some (r', extra) ∧ Passage names v r w r' ∧
      (∀ name, names.contains name → w.get? name = (ofFields fs).get? name) ∧
      ∀ name u, names.contains name = false → v.get? name = some u →
        w.get? name = some u.sorted := by
  obtain ⟨hr, others⟩ := exists_of_openRecord? plain h
  have members : (fs ++ extra.map some).filterMap id = fs.filterMap id ++ extra := by
    rw [List.filterMap_append]
    simp
  have known' : ∀ m ∈ fs.filterMap id, names.contains m.1 := fun m hm => by
    obtain ⟨f, hf, rfl⟩ := List.mem_filterMap.mp hm
    exact known _ hf m rfl
  have once' : WrittenOnce (fs ++ extra.map some) := by
    rw [WrittenOnce, members, List.map_append, List.nodup_append]
    refine ⟨once, nodup_of_inKeyOrder others.ordered, fun key hkey key' hkey' e => ?_⟩
    obtain ⟨m, hm, rfl⟩ := List.mem_map.mp hkey
    obtain ⟨m', hm', rfl⟩ := List.mem_map.mp hkey'
    have := known' m hm
    rw [e, others.unknown m' hm'] at this
    cases this
  obtain ⟨r', hr', c⟩ := exists_passage plain hr hw once'
  have get (name : String) :
      w.get? name = ((ofFields fs).get? name).or (extra.lookup name) := by
    rw [hw, get?_ofFields_append]
    congr 1
    change List.lookup name ((extra.map some).filterMap id) = _
    simp
  refine ⟨r', ?_, c, fun name hname => ?_, fun name u hname hu => ?_⟩
  · rw [hw] at hr' ⊢
    rw [ofFields, openRecord?_object, ← ofFields, hr', members, others.again known']
    rfl
  · have missing : extra.lookup name = none := by
      refine Option.eq_none_iff_forall_ne_some.mpr fun u hu => ?_
      have := others.unknown _ (mem_of_lookup hu)
      rw [hname] at this
      cases this
    rw [get, missing, Option.or_none]
  · have missing : (ofFields fs).get? name = none := by
      refine Option.eq_none_iff_forall_ne_some.mpr fun u hu => ?_
      have := known' _ (mem_of_lookup hu)
      rw [hname] at this
      cases this
    rw [get, missing, Option.none_or, others.lookup hname hu]

theorem isBlind_openRecord {names : List String} {f : Record × List (String × Json) → Option α}
    (h : ∀ r r' extra, r.SortsTo r' → f (r', extra) = f (r, extra)) :
    IsBlind fun v => (openRecord? names v).bind f := by
  intro v plain
  cases v with
  | object members =>
    dsimp only
    rw [sorted, openRecord?_object, openRecord?_object, ← sorted,
      otherMembers_sorted (isPlain_object.mp plain).1]
    rcases record?_sorted plain names with ⟨none, none'⟩ | ⟨r, r', hr, hr', sorts⟩
    · rw [none, none']
    · rw [hr, hr']
      exact h r r' _ sorts
  | _ => rfl

end Switchboard.Json
