import Switchboard.Proofs.Json.Passage

/-!
# Choices that are read and written again

A choice between forms is read from an object whose tag names one of them (`choose?`). It
survives if each form does, if a form has no field with the key of the tag, and if it is
written with its own name for a tag (`FormsSurvive`). Then the tag of what is written leads
back to the form that was read, also where the first tag named it by its place
(`FormsSurvive.survives`).

An open choice (`choose`) takes what fits none of its forms as the value that it is. It could
go wrong in one way only : that a value which was kept as it is, and whose members are in order
since then, is read as a form the second time. That is where readers must be blind to the order
of members (`FormsSurvive.survives_open`). What an open choice keeps is said by `KeepsOpen`.
-/

namespace Switchboard.Json

variable {α : Type} {forms : List String} {byPlace : Bool}

/-- The form that the tag of an object names : by its name, or by its place where that counts. -/
def kind? (forms : List String) (byPlace : Bool) (v : Json) : Option String :=
  (v.get? "type").bind (form? forms byPlace)

/-- Read a form that a tag names from what is left without the tag. -/
def choose? (forms : List String) (byPlace : Bool) (ofForm? : String → Json → Option α) (v : Json) :
    Option α :=
  (tagged? "type" forms byPlace v).bind fun (form, rest) => ofForm? form rest

theorem mem_of_form? {v : Json} {form : String} (h : form? forms byPlace v = some form) :
    form ∈ forms := by
  unfold form? at h
  split at h
  · split_ifs at h with known
    cases h
    simpa using known
  · split_ifs at h
    exact List.mem_of_getElem? h
  · cases h

theorem isBlind_form : IsBlind (form? forms byPlace) := fun v _ => by cases v <;> rfl

theorem kind?_sorted {v : Json} (plain : v.isPlain) :
    kind? forms byPlace v.sorted = kind? forms byPlace v := by
  rw [kind?, kind?, get?_sorted plain]
  cases h : v.get? "type" with
  | none => rfl
  | some u => exact isBlind_form u (isPlain_of_get? plain h)

theorem mem_of_kind? {v : Json} {form : String} (h : kind? forms byPlace v = some form) :
    form ∈ forms := by
  obtain ⟨u, -, h⟩ := Option.bind_eq_some_iff.mp h
  exact mem_of_form? h

/-- The tag is the only member with its key. -/
theorem filter_tag (tag : String) {members : List (String × Json)}
    (distinct : (members.map (·.1)).Nodup) :
    members.filter (fun m => m.1 == tag) = ((members.lookup tag).map fun u => (tag, u)).toList := by
  induction members with
  | nil => rfl
  | cons m rest ih =>
    obtain ⟨key, u⟩ := m
    obtain ⟨new, distinct⟩ := List.nodup_cons.mp distinct
    rw [List.filter_cons, List.lookup_cons, ih distinct]
    by_cases h : tag = key
    · subst h
      have missing : rest.lookup tag = none := by
        rw [List.lookup_eq_none_iff]
        intro m hm
        exact bne_iff_ne.mpr fun h => new (List.mem_map.mpr ⟨m, hm, h.symm⟩)
      simp [missing]
    · simp [beq_eq_false_iff_ne.mpr h, beq_eq_false_iff_ne.mpr (Ne.symm h)]

theorem tagged?_object {members : List (String × Json)} (distinct : (members.map (·.1)).Nodup) :
    tagged? "type" forms byPlace (.object members) =
      (kind? forms byPlace (.object members)).map fun form =>
        (form, .object (members.filter fun m => m.1 != "type")) := by
  have tags := filter_tag "type" distinct
  have rest : (not ∘ fun m : String × Json => m.1 == "type") = fun m => m.1 != "type" := rfl
  simp only [tagged?, List.partition_eq_filter_filter, tags, rest, kind?, get?]
  cases members.lookup "type" with
  | none => rfl
  | some u => cases h : form? forms byPlace u <;> simp [h]

theorem record?_withoutTag {names : List String} (h : "type" ∉ names)
    (members : List (String × Json)) :
    record? names (.object (members.filter fun m => m.1 != "type")) =
      record? names (.object members) := by
  have same : (members.filter fun m => m.1 != "type").filter (fun m => names.contains m.1) =
      members.filter fun m => names.contains m.1 := by
    rw [List.filter_filter]
    refine List.filter_congr fun m _ => ?_
    by_cases hm : m.1 = "type"
    · simp [hm, h]
    · simp [hm]
  simp only [record?, same]

/-! ## Closed choices -/

/-- What the forms of a choice have to do for the choice to survive. -/
structure FormsSurvive (forms : List String) (ofForm? : String → Json → Option α)
    (write : α → Json) (keeps : String → Json → Json → Prop) : Prop where
  /-- A form has no field with the key of the tag. -/
  untagged : ∀ form members, ofForm? form (.object (members.filter fun m => m.1 != "type")) =
    ofForm? form (.object members)
  /-- What is read of a form is written as an object with the name of the form as its tag. -/
  again : ∀ {form v a}, form ∈ forms → v.isPlain → ofForm? form v = some a →
    (∃ fs, write a = ofFields (field "type" (.string form) :: fs) ∧
      WrittenOnce (field "type" (.string form) :: fs)) ∧
    ofForm? form (write a) = some a ∧ keeps form v (write a)

/-- The tag is written by name, and what the form keeps is kept. -/
def KeepsChoice (forms : List String) (byPlace : Bool) (keeps : String → Json → Json → Prop)
    (v w : Json) : Prop :=
  ∀ form, kind? forms byPlace v = some form →
    w.get? "type" = some (.string form) ∧ keeps form v w

section Closed

variable {ofForm? : String → Json → Option α} {write : α → Json}
  {keeps : String → Json → Json → Prop}

theorem FormsSurvive.choose?_object (s : FormsSurvive forms ofForm? write keeps)
    {members : List (String × Json)} (distinct : (members.map (·.1)).Nodup) :
    choose? forms byPlace ofForm? (.object members) =
      (kind? forms byPlace (.object members)).bind fun form => ofForm? form (.object members) := by
  rw [choose?, tagged?_object distinct]
  cases kind? forms byPlace (.object members) with
  | none => rfl
  | some form => exact s.untagged form members

/-- What is chosen is a form that is read of a plain value : of the value itself, if the value
is an object. -/
theorem FormsSurvive.exists_form (s : FormsSurvive forms ofForm? write keeps) {v : Json} {a : α}
    (plain : v.isPlain) (h : choose? forms byPlace ofForm? v = some a) :
    ∃ form v', form ∈ forms ∧ v'.isPlain ∧ ofForm? form v' = some a ∧
      ∀ form', kind? forms byPlace v = some form' → form' = form ∧ v = v' := by
  cases v with
  | object members =>
    rw [s.choose?_object (isPlain_object.mp plain).1] at h
    obtain ⟨form, hform, ha⟩ := Option.bind_eq_some_iff.mp h
    refine ⟨form, _, mem_of_kind? hform, plain, ha, fun form' h' => ⟨?_, rfl⟩⟩
    exact Option.some_inj.mp (h'.symm.trans hform)
  | array items =>
    cases items with
    | nil => cases h
    | cons t rest =>
      obtain ⟨⟨form, rest'⟩, h, ha⟩ := Option.bind_eq_some_iff.mp h
      obtain ⟨form', hform, e⟩ := Option.bind_eq_some_iff.mp h
      cases e
      have plain' : (array rest).isPlain :=
        isPlain_array.mpr fun u hu => isPlain_array.mp plain u (List.mem_cons_of_mem _ hu)
      exact ⟨form, _, mem_of_form? hform, plain', ha, nofun⟩
  | _ => cases h

theorem FormsSurvive.survives (s : FormsSurvive forms ofForm? write keeps) :
    Survives (choose? forms byPlace ofForm?) write (KeepsChoice forms byPlace keeps) where
  again {v a} plain h := by
    obtain ⟨form, v', known, plain', ha, -⟩ := s.exists_form plain h
    obtain ⟨⟨fs, written, once⟩, again, -⟩ := s.again known plain' ha
    rw [written] at again ⊢
    rw [ofFields, s.choose?_object once, ← ofFields, kind?, get?_ofFields_cons, fieldAt_field,
      if_pos rfl]
    change (form? forms byPlace (.string form)).bind _ = _
    rw [form?, if_pos (by simpa using known)]
    exact again
  kept {v a} plain h := by
    obtain ⟨form, v', known, plain', ha, own⟩ := s.exists_form plain h
    obtain ⟨⟨fs, written, -⟩, -, kept⟩ := s.again known plain' ha
    intro form' h'
    obtain ⟨rfl, rfl⟩ := own form' h'
    refine ⟨?_, kept⟩
    rw [written, get?_ofFields_cons, fieldAt_field, if_pos rfl]
    rfl
  notNull {v a} plain h null := by
    obtain ⟨form, v', known, plain', ha, -⟩ := s.exists_form plain h
    obtain ⟨⟨fs, written, -⟩, -, -⟩ := s.again known plain' ha
    rw [written] at null
    cases null

theorem FormsSurvive.isBlind (s : FormsSurvive forms ofForm? write keeps)
    (blind : ∀ form, IsBlind (ofForm? form)) : IsBlind (choose? forms byPlace ofForm?) := by
  intro v plain
  cases v with
  | object members =>
    have distinct := (isPlain_object.mp plain).1
    have distinct' := nodup_of_inKeyOrder (inKeyOrder_sortMembers (sortedMembers members))
    rw [sorted, s.choose?_object distinct, s.choose?_object distinct', ← sorted,
      kind?_sorted plain]
    refine Option.bind_congr fun form _ => blind form _ plain
  | array items =>
    cases items with
    | nil => rfl
    | cons t rest =>
      have plain := isPlain_array.mp plain
      have plain' : (array rest).isPlain :=
        isPlain_array.mpr fun u hu => plain u (List.mem_cons_of_mem _ hu)
      have chosen : ∀ t rest, choose? forms byPlace ofForm? (.array (t :: rest)) =
          (form? forms byPlace t).bind fun form => ofForm? form (.array rest) := fun t rest => by
        change (Option.bind _ _).bind _ = _
        cases form? forms byPlace t <;> rfl
      rw [sorted, sortedItems, chosen, chosen, isBlind_form t (plain t List.mem_cons_self)]
      exact Option.bind_congr fun form _ => blind form _ plain'
  | _ => rfl

end Closed

/-! ## Open choices -/

/-- Read an open choice, where what fits none of the forms is kept as the value that it is. -/
def choose (forms : List String) (ofForm? : String → Json → Option α) (other : Json → α)
    (v : Json) : α :=
  match choose? forms true ofForm? v with
  | some a => a
  | none => other v.sorted

theorem choose_of_some {ofForm? : String → Json → Option α} {other : Json → α} {v : Json} {a : α}
    (h : choose? forms true ofForm? v = some a) : choose forms ofForm? other v = a := by
  rw [choose, h]

theorem choose_of_none {ofForm? : String → Json → Option α} {other : Json → α} {v : Json}
    (h : choose? forms true ofForm? v = none) :
    choose forms ofForm? other v = other v.sorted := by
  rw [choose, h]

/-- What an open choice keeps of a value that is not an array. -/
structure KeepsOpen (forms : List String) (ofForm? : String → Json → Option α)
    (keeps : String → Json → Json → Prop) (v w : Json) : Prop where
  /-- A value whose tag names none of the forms is written back as it is. -/
  unknown : kind? forms true v = none → v.array? = none → w = v.sorted
  /-- So is one that does not fit the form that its tag names. -/
  unfit : ∀ form, kind? forms true v = some form → ofForm? form v = none → w = v.sorted
  /-- Of one that fits, what the form keeps is kept. -/
  fit : ∀ form, kind? forms true v = some form → (ofForm? form v).isSome →
    w.get? "type" = some (.string form) ∧ keeps form v w

section Open

variable {ofForm? : String → Json → Option α} {write : α → Json} {other : Json → α}
  {keeps : String → Json → Json → Prop}

theorem FormsSurvive.isBlind_open (s : FormsSurvive forms ofForm? write keeps)
    (blind : ∀ form, IsBlind (ofForm? form)) :
    IsBlind fun v => some (choose forms ofForm? other v) := by
  intro v plain
  simp only [choose, s.isBlind blind v plain, sorted_sorted]

theorem FormsSurvive.choose?_eq_none (s : FormsSurvive forms ofForm? write keeps) {v : Json}
    (plain : v.isPlain) (object : v.array? = none)
    (h : ∀ form, kind? forms byPlace v = some form → ofForm? form v = none) :
    choose? forms byPlace ofForm? v = none := by
  cases v with
  | object members =>
    rw [s.choose?_object (isPlain_object.mp plain).1, Option.bind_eq_none_iff]
    exact h
  | array items => cases object
  | _ => rfl

theorem FormsSurvive.exists_choose? (s : FormsSurvive forms ofForm? write keeps) {v : Json}
    {form : String} (plain : v.isPlain) (h : kind? forms byPlace v = some form)
    (fits : (ofForm? form v).isSome) : ∃ a, choose? forms byPlace ofForm? v = some a := by
  obtain ⟨a, ha⟩ := Option.isSome_iff_exists.mp fits
  cases v with
  | object members =>
    refine ⟨a, ?_⟩
    rw [s.choose?_object (isPlain_object.mp plain).1, h]
    exact ha
  | _ => cases h

/-- An open choice survives : a value that is kept as it is is never read as a form. -/
theorem FormsSurvive.survives_open (s : FormsSurvive forms ofForm? write keeps)
    (blind : ∀ form, IsBlind (ofForm? form)) (verbatim : ∀ u, write (other u) = u) :
    Survives (fun v => some (choose forms ofForm? other v)) write
      (KeepsOpen forms ofForm? keeps) where
  again {v a} plain h := by
    obtain rfl := Option.some_inj.mp h
    cases hc : choose? forms true ofForm? v with
    | some a => rw [choose_of_some hc, choose_of_some (s.survives.again plain hc)]
    | none =>
      have still : choose? forms true ofForm? v.sorted = none := by
        rw [s.isBlind blind v plain, hc]
      rw [choose_of_none hc, verbatim, choose_of_none still, sorted_sorted]
  kept {v a} plain h := by
    obtain rfl := Option.some_inj.mp h
    have kept_of_none : choose? forms true ofForm? v = none →
        write (choose forms ofForm? other v) = v.sorted := fun hc => by
      rw [choose_of_none hc, verbatim]
    refine ⟨fun unknown object => ?_, fun form h unfit => ?_, fun form h fits => ?_⟩
    · exact kept_of_none (s.choose?_eq_none plain object fun form h =>
        absurd (unknown.symm.trans h) nofun)
    · refine kept_of_none (s.choose?_eq_none plain ?_ fun form' h' => ?_)
      · cases v with
        | array items => cases h
        | _ => rfl
      · cases h.symm.trans h'
        exact unfit
    · obtain ⟨a, ha⟩ := s.exists_choose? plain h fits
      rw [choose_of_some ha]
      exact s.survives.kept plain ha form h
  notNull {v a} plain h null := by
    obtain rfl := Option.some_inj.mp h
    cases hc : choose? forms true ofForm? v with
    | some a =>
      rw [choose_of_some hc] at null
      exact s.survives.notNull plain hc null
    | none =>
      rw [choose_of_none hc, verbatim] at null
      exact sorted_eq_null.mp null

/-- So does what reads it, as a value that is always read. -/
theorem FormsSurvive.survives_read (s : FormsSurvive forms ofForm? write keeps)
    (blind : ∀ form, IsBlind (ofForm? form)) (verbatim : ∀ u, write (other u) = u)
    {read : Json → α} (h : read = choose forms ofForm? other) :
    Survives (fun v => some (read v)) write fun v w =>
      read w = read v ∧ KeepsOpen forms ofForm? keeps v w := by
  subst h
  exact (s.survives_open blind verbatim).imp fun v w alike kept =>
    ⟨Option.some_inj.mp alike, kept⟩

end Open

end Switchboard.Json
