import Mathlib.Data.List.Induction
import Switchboard.Config.Load
import Switchboard.Proofs.Config.Marks
import Switchboard.Proofs.Json.Sorted

/-!
# Variables in a whole configuration

The texts of a configuration are replaced in the order in which one walks through it : arrays by
place, tables by key. `texts` lists them with the steps that lead to them, each text that stands in
the tree (`mem_texts_iff`) and in the order of their steps if the tables are in key order
(`pairwise_texts`). The first of them with a variable that is not set is what the whole expansion
fails with, and if there is none the tree comes back with its texts replaced and nothing else
changed (`expand_eq`).

`expand_exact` puts this together with what is known about a single text, and with the path of the
text as it is written in the error (`written_pathText`).
-/

namespace Switchboard

/-! ## The texts of a tree -/

namespace Json

/-- What holds of an array or an object if it holds of what is in it holds of every value. -/
theorem induction {P : Json → Prop} (null : P .null) (bool : ∀ b, P (.bool b))
    (number : ∀ n, P (.number n)) (string : ∀ s, P (.string s))
    (array : ∀ items, (∀ item ∈ items, P item) → P (.array items))
    (object : ∀ members, (∀ m ∈ members, P m.2) → P (.object members)) (v : Json) : P v :=
  @Json.rec P (fun items => ∀ item ∈ items, P item) (fun members => ∀ m ∈ members, P m.2)
    (fun m => P m.2) null bool number string array object
    (fun _ none => absurd none List.not_mem_nil)
    (fun _ _ first others => List.forall_mem_cons.mpr ⟨first, others⟩)
    (fun _ none => absurd none List.not_mem_nil)
    (fun _ _ first others => List.forall_mem_cons.mpr ⟨first, others⟩)
    (fun _ _ value => value) v

mutual

/-- The value with `f` applied to each text in it. -/
def mapTexts (f : String → String) : Json → Json
  | .string s => .string (f s)
  | .array items => .array (mapTextsItems f items)
  | .object members => .object (mapTextsMembers f members)
  | other => other

/-- The items with `f` applied to each text in them. -/
def mapTextsItems (f : String → String) : List Json → List Json
  | [] => []
  | item :: rest => item.mapTexts f :: mapTextsItems f rest

/-- The members with `f` applied to each text in their values. -/
def mapTextsMembers (f : String → String) : List (String × Json) → List (String × Json)
  | [] => []
  | (key, value) :: rest => (key, value.mapTexts f) :: mapTextsMembers f rest

end

@[simp] theorem mapTextsItems_eq (f : String → String) (items : List Json) :
    mapTextsItems f items = items.map (mapTexts f) := by
  induction items with
  | nil => rfl
  | cons item rest ih => rw [mapTextsItems, ih, List.map_cons]

@[simp] theorem mapTextsMembers_eq (f : String → String) (members : List (String × Json)) :
    mapTextsMembers f members = members.map fun m => (m.1, m.2.mapTexts f) := by
  induction members with
  | nil => rfl
  | cons m rest ih => rw [mapTextsMembers, ih, List.map_cons]

end Json

namespace Environment

variable {vars : Variables} {path steps : List PathStep} {tree : Json} {s : String}

/-- The text `s` stands in the tree, and the steps lead to it. -/
inductive TextAt (s : String) : List PathStep → Json → Prop
  | here : TextAt s [] (.string s)
  | item {items index item steps} (found : items[index]? = some item)
    (inside : TextAt s steps item) : TextAt s (.place index :: steps) (.array items)
  | member {members key value steps} (found : (key, value) ∈ members)
    (inside : TextAt s steps value) : TextAt s (.key key :: steps) (.object members)

/-- A text inside a value, as a text of what the value is in. -/
def under (step : PathStep) (found : List PathStep × String) : List PathStep × String :=
  (step :: found.1, found.2)

mutual

/-- The texts of a tree in order, with the steps that lead to them. -/
def texts : Json → List (List PathStep × String)
  | .string s => [([], s)]
  | .array items => textsOfItems 0 items
  | .object members => textsOfMembers members
  | _ => []

/-- The texts in items, the first of which is at a place. -/
def textsOfItems (index : Nat) : List Json → List (List PathStep × String)
  | [] => []
  | item :: rest => (texts item).map (under (.place index)) ++ textsOfItems (index + 1) rest

/-- The texts in the values of members. -/
def textsOfMembers : List (String × Json) → List (List PathStep × String)
  | [] => []
  | (key, value) :: rest => (texts value).map (under (.key key)) ++ textsOfMembers rest

end

theorem textsOfItems_eq (index : Nat) (items : List Json) : textsOfItems index items =
    (items.zipIdx index).flatMap fun item => (texts item.1).map (under (.place item.2)) := by
  induction items generalizing index with
  | nil => rfl
  | cons item rest ih => rw [textsOfItems, ih, List.zipIdx_cons, List.flatMap_cons]

theorem textsOfMembers_eq (members : List (String × Json)) :
    textsOfMembers members = members.flatMap fun m => (texts m.2).map (under (.key m.1)) := by
  induction members with
  | nil => rfl
  | cons m rest ih => rw [textsOfMembers, ih, List.flatMap_cons]

theorem mem_texts_iff : (steps, s) ∈ texts tree ↔ TextAt s steps tree := by
  induction tree using Json.induction generalizing steps with
  | null | bool b | number n =>
    refine iff_of_false List.not_mem_nil ?_
    rintro ⟨⟩
  | string s' =>
    rw [texts, List.mem_singleton]
    constructor
    · rintro ⟨⟩
      exact .here
    · rintro ⟨⟩
      rfl
  | array items ih =>
    rw [texts, textsOfItems_eq, List.mem_flatMap]
    constructor
    · rintro ⟨⟨item, index⟩, numbered, below⟩
      obtain ⟨⟨steps, s⟩, inside, ⟨⟩⟩ := List.mem_map.mp below
      have found := List.mem_zipIdx_iff_getElem?.mp numbered
      exact .item found ((ih item (List.mem_of_getElem? found)).mp inside)
    · rintro (_ | @⟨_, index, item, steps, found, inside⟩)
      have listed := (ih item (List.mem_of_getElem? found)).mpr inside
      exact ⟨(item, index), List.mem_zipIdx_iff_getElem?.mpr found, List.mem_map_of_mem listed⟩
  | object members ih =>
    rw [texts, textsOfMembers_eq, List.mem_flatMap]
    constructor
    · rintro ⟨⟨key, value⟩, found, below⟩
      obtain ⟨⟨steps, s⟩, inside, ⟨⟩⟩ := List.mem_map.mp below
      exact .member found ((ih _ found).mp inside)
    · rintro (_ | _ | @⟨_, key, value, steps, found, inside⟩)
      exact ⟨(key, value), found, List.mem_map_of_mem ((ih _ found).mpr inside)⟩

/-! ## The order of the texts -/

/-- One step comes before another into the same value. -/
inductive PathStep.Before : PathStep → PathStep → Prop
  | key {name name' : String} (h : name < name') : Before (.key name) (.key name')
  | place {index index' : Nat} (h : index < index') : Before (.place index) (.place index')

/-- Who walks through the tree comes to one text before the other. -/
abbrev Precedes (steps steps' : List PathStep) : Prop := List.Lex PathStep.Before steps steps'

theorem precedes_of_before {step step' : PathStep} (h : step.Before step')
    {found found' : List (List PathStep × String)} : ∀ t ∈ found.map (under step),
      ∀ t' ∈ found'.map (under step'), Precedes t.1 t'.1 := by
  intro t ht t' ht'
  obtain ⟨inner, -, rfl⟩ := List.mem_map.mp ht
  obtain ⟨inner', -, rfl⟩ := List.mem_map.mp ht'
  exact .rel h

theorem pairwise_under {found : List (List PathStep × String)} (step : PathStep)
    (h : found.Pairwise fun t t' => Precedes t.1 t'.1) :
    (found.map (under step)).Pairwise fun t t' => Precedes t.1 t'.1 :=
  List.pairwise_map.mpr (h.imp fun before => .cons before)

/-- The texts of a tree whose tables are in key order are listed in the order of their steps. -/
theorem pairwise_texts (ordered : tree.sorted = tree) :
    (texts tree).Pairwise fun t t' => Precedes t.1 t'.1 := by
  induction tree using Json.induction with
  | null | bool b | number n => exact .nil
  | string s => exact List.pairwise_singleton _ _
  | array items ih =>
    rw [texts, textsOfItems_eq, List.pairwise_flatMap]
    have numbers : ((items.zipIdx 0).map (·.2)).Pairwise (· < ·) := by
      rw [List.zipIdx_map_snd]
      exact List.pairwise_lt_range'
    refine ⟨fun item numbered => pairwise_under _ ?_,
      (List.pairwise_map.mp numbers).imp fun before => precedes_of_before (.place before)⟩
    have found : item.1 ∈ items := (List.mem_zipIdx' numbered).2 ▸ List.getElem_mem _
    exact ih item.1 found (Json.sorted_of_mem_array ordered item.1 found)
  | object members ih =>
    rw [texts, textsOfMembers_eq, List.pairwise_flatMap]
    exact ⟨fun m hm => pairwise_under _ (ih m hm (Json.sorted_of_mem_object ordered m hm)),
      (Json.inKeyOrder_of_sorted ordered).imp fun before => precedes_of_before (.key before)⟩

/-- A text of the tree is listed before a given one, or it is that one, or it comes later. -/
theorem precedes_of_split (ordered : tree.sorted = tree) {before after}
    (whole : texts tree = before ++ (steps, s) :: after) {steps' : List PathStep} {s' : String}
    (standing : TextAt s' steps' tree) :
    (steps', s') ∈ before ∨ (steps' = steps ∧ s' = s) ∨ Precedes steps steps' := by
  have inOrder := pairwise_texts ordered
  have listed := mem_texts_iff.mpr standing
  rw [whole] at inOrder listed
  rcases List.mem_append.mp listed with early | late
  · exact .inl early
  rcases List.mem_cons.mp late with same | late
  · exact .inr (.inl (Prod.mk.inj same))
  · exact .inr (.inr (List.rel_of_pairwise_cons (List.pairwise_append.mp inOrder).2.1 late))

/-! ## Expansion -/

/-- The first text with a variable that is not set, at `path`. -/
def missing? (vars : Variables) (path : List PathStep) (found : List (List PathStep × String)) :
    Option Missing :=
  found.findSome? fun t => (unset? vars (pieces t.2)).map fun name => ⟨path ++ t.1, name⟩

theorem missing?_append (found found' : List (List PathStep × String)) :
    missing? vars path (found ++ found') =
      (missing? vars path found).or (missing? vars path found') :=
  List.findSome?_append

theorem missing?_under (step : PathStep) (found : List (List PathStep × String)) :
    missing? vars path (found.map (under step)) = missing? vars (path ++ [step]) found := by
  rw [missing?, List.findSome?_map, missing?]
  congr 1
  funext t
  simp [under]

/-- What an expansion comes to : the text that stops it, or a tree. -/
def outcome {α : Type} (missing : Option Missing) (expanded : α) : Except Missing α :=
  match missing with
  | some m => .error m
  | none => .ok expanded

/-- The text with its variables replaced. -/
def fill (vars : Variables) (s : String) : String := substitute vars (pieces s)

theorem expandItems_eq {items : List Json} (h : ∀ item ∈ items, ∀ path, expand vars path item =
      outcome (missing? vars path (texts item)) (item.mapTexts (fill vars))) (index : Nat) :
    expandItems vars path index items = outcome (missing? vars path (textsOfItems index items))
      (items.map (Json.mapTexts (fill vars))) := by
  induction items generalizing index with
  | nil => rfl
  | cons item rest ih =>
    have others := ih fun item later => h item (List.mem_cons_of_mem _ later)
    rw [expandItems, h item List.mem_cons_self, others, textsOfItems, missing?_append,
      missing?_under]
    cases missing? vars (path ++ [.place index]) (texts item) with
    | some m => rfl
    | none => cases missing? vars path (textsOfItems (index + 1) rest) <;> rfl

theorem expandMembers_eq {members : List (String × Json)} (h : ∀ m ∈ members, ∀ path,
      expand vars path m.2 =
        outcome (missing? vars path (texts m.2)) (m.2.mapTexts (fill vars))) :
    expandMembers vars path members = outcome (missing? vars path (textsOfMembers members))
      (members.map fun m => (m.1, m.2.mapTexts (fill vars))) := by
  induction members with
  | nil => rfl
  | cons m rest ih =>
    have others := ih fun m later => h m (List.mem_cons_of_mem _ later)
    rw [expandMembers, h m List.mem_cons_self, others, textsOfMembers, missing?_append,
      missing?_under]
    cases missing? vars (path ++ [.key m.1]) (texts m.2) with
    | some m => rfl
    | none => cases missing? vars path (textsOfMembers rest) <;> rfl

/-- An expansion fails with the first text that has a variable that is not set, or else it
replaces the texts of the tree and nothing else. -/
theorem expand_eq (path : List PathStep) : expand vars path tree =
    outcome (missing? vars path (texts tree)) (tree.mapTexts (fill vars)) := by
  induction tree using Json.induction generalizing path with
  | null | bool b | number n => rfl
  | string s =>
    rw [expand, texts, missing?, List.findSome?_singleton, List.append_nil]
    cases unset? vars (pieces s) <;> rfl
  | array items ih =>
    rw [expand, expandItems_eq ih, texts]
    cases missing? vars path (textsOfItems 0 items) with
    | some m => rfl
    | none =>
      rw [Json.mapTexts, Json.mapTextsItems_eq]
      rfl
  | object members ih =>
    rw [expand, expandMembers_eq ih, texts]
    cases missing? vars path (textsOfMembers members) with
    | some m => rfl
    | none =>
      rw [Json.mapTexts, Json.mapTextsMembers_eq]
      rfl

/-! ## Paths as they are written -/

/-- The path is written as the text : names with points between them, and places in brackets. -/
inductive Written : List PathStep → String → Prop
  | root : Written [] ""
  | first (name : String) : Written [.key name] name
  | key {path text} (name : String) (inside : path ≠ []) (before : Written path text) :
    Written (path ++ [.key name]) (text ++ "." ++ name)
  | place {path text} (index : Nat) (before : Written path text) :
    Written (path ++ [.place index]) (text ++ "[" ++ toString index ++ "]")

theorem pathTail_append (path path' : List PathStep) :
    pathTail (path ++ path') = pathTail path ++ pathTail path' := by
  induction path with
  | nil => exact String.empty_append.symm
  | cons step path ih =>
    cases step <;> simp only [List.cons_append, pathTail, ih, String.append_assoc]

theorem pathText_append {path : List PathStep} (inside : path ≠ []) (path' : List PathStep) :
    pathText (path ++ path') = pathText path ++ pathTail path' := by
  obtain ⟨step, path, rfl⟩ := List.exists_cons_of_ne_nil inside
  cases step with
  | key name => simp only [List.cons_append, pathText, pathTail_append, String.append_assoc]
  | place index => exact pathTail_append (.place index :: path) path'

theorem written_pathText (path : List PathStep) : Written path (pathText path) := by
  induction path using List.reverseRecOn with
  | nil => exact .root
  | append_singleton path step ih =>
    rcases eq_or_ne path [] with rfl | inside
    · cases step with
      | key name =>
        have alone : pathText [.key name] = name := String.append_empty
        rw [List.nil_append, alone]
        exact .first name
      | place index => simpa [pathText, pathTail] using Written.place index .root
    · rw [pathText_append inside]
      cases step with
      | key name => simpa [pathTail, String.append_assoc] using Written.key name inside ih
      | place index => simpa [pathTail, String.append_assoc] using Written.place index ih

/-! ## The whole expansion -/

/-- A variable is marked in the text that is not set. -/
def HasUnset (vars : Variables) (s : String) : Prop :=
  ∃ name, Mentions s.toList name ∧ vars.lookup name = none

theorem not_hasUnset_iff : ¬HasUnset vars s ↔ unset? vars (pieces s) = none := by
  rw [HasUnset, pieces, unset?_eq_none_iff, not_exists]
  refine forall_congr' fun name => ?_
  rw [not_and, Option.isSome_iff_ne_none]

theorem missing?_eq_none_iff {found : List (List PathStep × String)} :
    missing? vars path found = none ↔ ∀ t ∈ found, ¬HasUnset vars t.2 := by
  rw [missing?, List.findSome?_eq_none_iff]
  refine forall₂_congr fun t _ => ?_
  rw [Option.map_eq_none_iff, not_hasUnset_iff]

/-- An expansion that fails names the first variable of its text that is not set, and the texts
before that one have none. -/
theorem exists_of_missing? {found : List (List PathStep × String)} {m : Missing}
    (h : missing? vars path found = some m) : ∃ before steps s after name,
      m = ⟨path ++ steps, name⟩ ∧ found = before ++ (steps, s) :: after ∧
        IsFirstUnset vars s.toList name ∧ ∀ t ∈ before, ¬HasUnset vars t.2 := by
  obtain ⟨before, ⟨steps, s⟩, after, whole, here, none⟩ := List.findSome?_eq_some_iff.mp h
  obtain ⟨name, unset, rfl⟩ := Option.map_eq_some_iff.mp here
  exact ⟨before, steps, s, after, name, rfl, whole, isFirstUnset_of_unset? unset,
    missing?_eq_none_iff.mp (List.findSome?_eq_none_iff.mpr none)⟩

/-- The tables of a configuration are kept in key order. If a text in it has a variable that is not
set, the expansion fails with the first such text and with the first such variable in it. Otherwise
it gives the same tree, in which the variables of every text are replaced by their values. -/
theorem expand_exact (vars : Variables) (path : List PathStep) {tree : Json}
    (ordered : tree.sorted = tree) :
    ((∃ steps s, TextAt s steps tree ∧ HasUnset vars s) →
      ∃ steps s name text, TextAt s steps tree ∧ IsFirstUnset vars s.toList name ∧
        (∀ steps' s', TextAt s' steps' tree → HasUnset vars s' →
          (steps' = steps ∧ s' = s) ∨ Precedes steps steps') ∧
        expand vars path tree = .error ⟨path ++ steps, name⟩ ∧ Written (path ++ steps) text ∧
        (LoadError.unsetVariable ⟨path ++ steps, name⟩).message = "At " ++ text ++
          " failed substituting environment variable: environment variable `" ++ name ++
          "` is not set") ∧
    ((∀ steps s, TextAt s steps tree → ¬HasUnset vars s) →
      ∃ f, expand vars path tree = .ok (tree.mapTexts f) ∧
        ∀ steps s, TextAt s steps tree → Replaced vars s.toList (f s).toList) := by
  rw [expand_eq]
  constructor
  · rintro ⟨steps, s, standing, unset⟩
    cases h : missing? vars path (texts tree) with
    | none => exact absurd unset (missing?_eq_none_iff.mp h _ (mem_texts_iff.mpr standing))
    | some m =>
      obtain ⟨before, steps, s, after, name, rfl, whole, first, complete⟩ := exists_of_missing? h
      have listed : (steps, s) ∈ texts tree := whole ▸ List.mem_append_right _ List.mem_cons_self
      refine ⟨steps, s, name, _, mem_texts_iff.mp listed, first, ?_, rfl, written_pathText _, rfl⟩
      intro steps' s' standing' unset'
      exact (precedes_of_split ordered whole standing').resolve_left fun early =>
        complete _ early unset'
  · intro complete
    have none : missing? vars path (texts tree) = none :=
      missing?_eq_none_iff.mpr fun t listed => complete t.1 t.2 (mem_texts_iff.mp listed)
    rw [none]
    refine ⟨fill vars, rfl, fun steps s standing => ?_⟩
    have set := not_hasUnset_iff.mp (complete steps s standing)
    exact (replaced_iff (unset?_eq_none_iff.mp set)).mpr rfl

/-- A channel of which only the key is given. -/
def keyed (key : String) : Json :=
  .object [("channels", .array [.object [("key", .string key)]])]

theorem expand_exact_keyed :
    (∃ text, expand [] [] (keyed "\x7b\x7b env.KEY \x7d\x7d") =
        .error ⟨[.key "channels", .place 0, .key "key"], "KEY"⟩ ∧
      Written [.key "channels", .place 0, .key "key"] text) ∧
    ∃ f, expand [("KEY", "sk")] [] (keyed "\x7b\x7benv.KEY\x7d\x7d\x7d") = .ok (keyed f) ∧
      Replaced [("KEY", "sk")] "\x7b\x7benv.KEY\x7d\x7d\x7d".toList f.toList := by
  have standing (key : String) :
      TextAt key [.key "channels", .place 0, .key "key"] (keyed key) :=
    .member List.mem_cons_self (.item rfl (.member List.mem_cons_self .here))
  constructor
  · have unset : HasUnset [] "\x7b\x7b env.KEY \x7d\x7d" :=
      ⟨"KEY", mem_piecesFrom_iff.mp (by decide +kernel), rfl⟩
    obtain ⟨steps, s, name, text, -, -, -, failed, written, -⟩ :=
      (expand_exact [] [] (by decide +kernel)).1 ⟨_, _, standing _, unset⟩
    have fails : expand [] [] (keyed "\x7b\x7b env.KEY \x7d\x7d") =
        .error ⟨[.key "channels", .place 0, .key "key"], "KEY"⟩ := by decide +kernel
    obtain ⟨rfl, rfl⟩ := Missing.mk.inj (Except.error.inj (fails.symm.trans failed))
    exact ⟨text, fails, written⟩
  · have complete : missing? [("KEY", "sk")] [] (texts (keyed "\x7b\x7benv.KEY\x7d\x7d\x7d")) =
        none := by decide +kernel
    obtain ⟨f, replaced, filled⟩ := (expand_exact [("KEY", "sk")] [] (by decide +kernel)).2
      fun steps s standing => missing?_eq_none_iff.mp complete _ (mem_texts_iff.mpr standing)
    exact ⟨_, replaced, filled _ _ (standing _)⟩

end Environment

end Switchboard
