import Mathlib.Tactic.Common
import Switchboard.Relay.Merging

/-!
# No object goes on behind its last brace

A text that reads as a JSON value has nothing but blanks behind a front of it that is a
whole object (`isBlankText_of_isWholeObject`), and the front reads as the text does
(`parse?_of_isWholeObject`). So no proper front of the arguments of a call is taken for
all of them : what follows it can be left out.

The lexer has no open token behind a brace that closes (`run_closeBrace`), and a machine
that is done refuses every token (`run_of_done`).
-/

namespace Switchboard.Json

/-! ## The lexer -/

/-- Whether an object begins with a token, or is one. -/
def Token.opensObject : Token → Bool
  | .openObject => true
  | .scalar v => v.isObject
  | _ => false

namespace LexState

/-- What becomes of a token that is open : it is complete, and no object begins with it, or it is
open still. -/
def GoesOn (t : LexState) (tokens : List Token) : Prop :=
  (∃ first rest, tokens = first :: rest ∧ first.opensObject = false) ∨ tokens = [] ∧ t ≠ between

theorem run_append (s : LexState) (xs ys : List Char) :
    s.run (xs ++ ys) = (s.run xs).bind fun p => (p.1.run ys).map fun q => (q.1, p.2 ++ q.2) := by
  induction xs generalizing s with
  | nil => simp [run]
  | cons c cs ih =>
    rw [List.cons_append, run, run]
    cases hc : s.step c with
    | none => rfl
    | some p =>
      obtain ⟨t, tokens⟩ := p
      cases hr : t.run cs with
      | none => simp [ih, hr]
      | some q =>
        cases hy : q.1.run ys <;> simp [ih, hr, hy]

/-- A blank of any script is a blank of JSON between tokens, or it is refused. -/
theorem start_of_isBlank {c : Char} (h : Text.isBlank c = true) {p : LexState × List Token}
    (hp : start c = some p) : p = (between, []) := by
  unfold start at hp
  split at hp
  · exact (Option.some.inj hp).symm
  · exfalso
    have hn : ¬ c.isDigit = true ∧ ¬ c.isLower = true := by
      simp only [Text.isBlank, Bool.or_eq_true, Bool.and_eq_true, decide_eq_true_eq,
        beq_iff_eq] at h
      unfold Char.isDigit Char.isLower
      simp only [Bool.and_eq_true, decide_eq_true_eq, ge_iff_le, UInt32.le_iff_toNat_le,
        Char.toNat_val, Char.reduceToNat]
      omega
    split at hp <;> simp_all [Text.isBlank]

/-- Blanks leave the lexer between tokens. -/
theorem run_blanks {cs : List Char} (h : ∀ c ∈ cs, Text.isBlank c = true)
    {p : LexState × List Token} (hp : between.run cs = some p) : p = (between, []) := by
  induction cs generalizing p with
  | nil => exact (Option.some.inj hp).symm
  | cons c cs ih =>
    simp only [List.mem_cons, forall_eq_or_imp] at h
    rw [run] at hp
    obtain ⟨q, hq, hp⟩ := Option.bind_eq_some_iff.mp hp
    obtain rfl := start_of_isBlank h.1 hq
    obtain ⟨q, hq, hp⟩ := Option.bind_eq_some_iff.mp hp
    obtain rfl := ih h.2 hq
    exact (Option.some.inj hp).symm

/-- A brace that closes cannot stand at the end of a token of several characters. -/
theorem step_closeBrace {s : LexState} {p : LexState × List Token} {last : List Token}
    (hp : s.step '}' = some p) (hl : p.1.scalar? = some last) : p.1 = between := by
  have hs : start '}' = some (between, [.closeObject]) := rfl
  cases s with
  | between => exact (congrArg Prod.fst (Option.some.inj (hs.symm.trans hp))).symm
  | numeral back | word back =>
    rw [step, if_neg (by decide)] at hp
    obtain ⟨done, -, hp⟩ := Option.bind_eq_some_iff.mp hp
    rw [hs] at hp
    exact (congrArg Prod.fst (Option.some.inj hp)).symm
  | text back | partner back high | flawed =>
    obtain rfl := Option.some.inj hp
    cases hl
  | escape back high | flawedEscape => cases hp
  | unicode back high count value =>
    obtain rfl := Option.some.inj hp
    simp only [skipChar] at hl
    split at hl <;> cases hl
  | skip bytes =>
    obtain rfl := Option.some.inj hp
    simp only [skipChar] at hl
    split at hl <;> cases hl

/-- Behind a brace that closes no token is open. -/
theorem run_closeBrace {cs : List Char} {tokens : List Token}
    (h : tokens? (cs ++ ['}']) = some tokens) :
    between.run (cs ++ ['}']) = some (between, tokens) := by
  obtain ⟨p, hp, h⟩ := Option.bind_eq_some_iff.mp h
  obtain ⟨last, hl, h⟩ := Option.bind_eq_some_iff.mp h
  obtain rfl := Option.some.inj h
  have hb : p.1 = between := by
    rw [run_append] at hp
    obtain ⟨q, -, hp⟩ := Option.bind_eq_some_iff.mp hp
    obtain ⟨t, ht, rfl⟩ := Option.map_eq_some_iff.mp hp
    obtain ⟨u, hu, ht⟩ := Option.bind_eq_some_iff.mp ht
    obtain rfl := Option.some.inj ht
    exact step_closeBrace (p := u) hu hl
  rw [hb] at hl
  obtain rfl := Option.some.inj hl
  rw [hp, List.append_nil, ← hb]

theorem run_append_of_eq {s t : LexState} {tokens : List Token} {xs : List Char}
    (h : s.run xs = some (t, tokens)) (ys : List Char) :
    s.run (xs ++ ys) = (t.run ys).map fun q => (q.1, tokens ++ q.2) := by
  rw [run_append, h, Option.bind_some]

/-- What can be read with more behind it can be read without. -/
theorem exists_run_of_append {s : LexState} {p : LexState × List Token} {xs ys : List Char}
    (h : s.run (xs ++ ys) = some p) : ∃ q, s.run xs = some q := by
  rw [run_append] at h
  obtain ⟨q, hq, -⟩ := Option.bind_eq_some_iff.mp h
  exact ⟨q, hq⟩

theorem skipChar_ne_between (bytes : Nat) (c : Char) : skipChar bytes c ≠ between := by
  unfold skipChar
  split <;> exact nofun

theorem codeUnit_ne_between (back : List Char) (high : Option Nat) (unit : Nat) :
    codeUnit back high unit ≠ between := by
  cases high with
  | none =>
    simp only [codeUnit]
    split_ifs <;> exact nofun
  | some h =>
    simp only [codeUnit]
    split_ifs <;> exact nofun

theorem isObject_of_word? {cs : List Char} {v : Json} (h : word? cs = some v) :
    v.isObject = false := by
  unfold word? at h
  split at h <;> cases h <;> rfl

theorem stepFlawed_of_open {c : Char} {t : LexState} {tokens : List Token}
    (h : stepFlawed c = some (t, tokens)) : t.GoesOn tokens := by
  unfold stepFlawed at h
  split_ifs at h <;> cases h
  · exact .inl ⟨_, _, rfl, rfl⟩
  · exact .inr ⟨rfl, nofun⟩
  · exact .inr ⟨rfl, nofun⟩

/-- A token that is open stays open until it is complete. -/
theorem step_of_open {s t : LexState} {c : Char} {tokens : List Token} (hs : s ≠ between)
    (h : s.step c = some (t, tokens)) : t.GoesOn tokens := by
  cases s with
  | between => exact absurd rfl hs
  | numeral back =>
    rw [step] at h
    split_ifs at h
    · cases h
      exact .inr ⟨rfl, nofun⟩
    · obtain ⟨done, hd, h⟩ := Option.bind_eq_some_iff.mp h
      obtain ⟨p, -, h⟩ := Option.bind_eq_some_iff.mp h
      obtain ⟨parts, -, rfl⟩ := Option.map_eq_some_iff.mp hd
      cases h
      exact .inl ⟨_, _, rfl, rfl⟩
  | word back =>
    rw [step] at h
    split_ifs at h
    · cases h
      exact .inr ⟨rfl, nofun⟩
    · obtain ⟨done, hd, h⟩ := Option.bind_eq_some_iff.mp h
      obtain ⟨p, -, h⟩ := Option.bind_eq_some_iff.mp h
      obtain ⟨v, hv, rfl⟩ := Option.map_eq_some_iff.mp hd
      cases h
      exact .inl ⟨_, _, rfl, isObject_of_word? hv⟩
  | text back =>
    rw [step] at h
    split_ifs at h <;> cases h
    · exact .inl ⟨_, _, rfl, rfl⟩
    · exact .inr ⟨rfl, nofun⟩
    · exact .inr ⟨rfl, nofun⟩
  | escape back high =>
    rw [step] at h
    split_ifs at h
    · cases h
      exact .inr ⟨rfl, nofun⟩
    all_goals
      obtain ⟨d, -, h⟩ := Option.map_eq_some_iff.mp h
      cases h
      exact .inr ⟨rfl, nofun⟩
  | unicode back high count value =>
    right
    rw [step] at h
    split at h
    · cases h
      exact ⟨rfl, skipChar_ne_between _ c⟩
    · cases h
      refine ⟨rfl, ?_⟩
      split
      · exact codeUnit_ne_between back high _
      · exact nofun
  | partner back high =>
    rw [step] at h
    split_ifs at h
    · cases h
      exact .inr ⟨rfl, nofun⟩
    · exact stepFlawed_of_open h
  | flawed => exact stepFlawed_of_open h
  | flawedEscape =>
    rw [step] at h
    split_ifs at h
    · cases h
      exact .inr ⟨rfl, nofun⟩
    · obtain ⟨d, -, h⟩ := Option.map_eq_some_iff.mp h
      cases h
      exact .inr ⟨rfl, nofun⟩
  | skip bytes =>
    cases h
    exact .inr ⟨rfl, skipChar_ne_between _ c⟩

/-- A text that has begun a token has a token, and it opens no object. -/
theorem exists_cons_of_open {s t : LexState} {cs : List Char} {tokens last : List Token}
    (hs : s ≠ between) (h : s.run cs = some (t, tokens)) (hl : t.scalar? = some last) :
    ∃ first rest, tokens ++ last = first :: rest ∧ first.opensObject = false := by
  induction cs generalizing s tokens with
  | nil =>
    obtain ⟨rfl, rfl⟩ := Prod.mk.inj (Option.some.inj h)
    cases s with
    | between => exact absurd rfl hs
    | numeral back =>
      obtain ⟨parts, -, rfl⟩ := Option.map_eq_some_iff.mp hl
      exact ⟨_, _, rfl, rfl⟩
    | word back =>
      obtain ⟨v, hv, rfl⟩ := Option.map_eq_some_iff.mp hl
      exact ⟨_, _, rfl, isObject_of_word? hv⟩
    | _ => cases hl
  | cons c cs ih =>
    obtain ⟨p, hp, h⟩ := Option.bind_eq_some_iff.mp h
    obtain ⟨q, hq, h⟩ := Option.bind_eq_some_iff.mp h
    cases h
    rw [List.append_assoc]
    rcases step_of_open hs hp with ⟨first, rest, complete, noObject⟩ | ⟨none, stillOpen⟩
    · exact ⟨first, rest ++ (q.2 ++ last), by rw [complete, List.cons_append], noObject⟩
    · rw [none, List.nil_append]
      exact ih stillOpen hq

theorem isBlank_of_start {c : Char} (h : start c = some (between, [])) :
    Text.isBlank c = true := by
  unfold start at h
  split at h
  case isTrue hb =>
    simp only [isBlank, Bool.or_eq_true, decide_eq_true_eq] at hb
    rcases hb with ((rfl | rfl) | rfl) | rfl <;> rfl
  case isFalse =>
    split at h <;> simp at h
    split_ifs at h <;> cases h

/-- A text without tokens is blank. -/
theorem isBlank_of_run {cs : List Char} {t : LexState}
    (h : between.run cs = some (t, [])) (hl : t.scalar? = some []) :
    ∀ c ∈ cs, Text.isBlank c = true := by
  induction cs with
  | nil => exact nofun
  | cons c cs ih =>
    obtain ⟨⟨s, tokens⟩, hs, h⟩ := Option.bind_eq_some_iff.mp h
    obtain ⟨⟨t', more⟩, hm, h⟩ := Option.bind_eq_some_iff.mp h
    obtain ⟨rfl, hn⟩ := Prod.mk.inj (Option.some.inj h)
    obtain ⟨rfl, rfl⟩ := List.append_eq_nil_iff.mp hn
    have hb : s = between := by
      by_contra hb
      obtain ⟨_, _, hn, -⟩ := exists_cons_of_open hb hm hl
      cases hn
    rw [hb] at hs hm
    exact List.forall_mem_cons.mpr ⟨isBlank_of_start hs, ih hm⟩

end LexState

/-! ## The machine -/

namespace Machine

variable {r : Reader} {m m' : Machine}

theorem run_append (r : Reader) (m : Machine) (ts us : List Token) :
    run r m (ts ++ us) = (run r m ts).bind fun m => run r m us := by
  induction ts generalizing m with
  | nil => rfl
  | cons t ts ih =>
    rw [List.cons_append, run, run, Option.bind_assoc]
    simp only [ih]

/-- After a whole value every token is refused. -/
theorem run_of_done {v : Json} {ts : List Token} (h : m.expect = .done v)
    (hr : run r m ts = some m') : ts = [] ∧ m' = m := by
  cases ts with
  | nil => exact ⟨rfl, (Option.some.inj hr).symm⟩
  | cons t ts =>
    have hs : m.step r t = none := by simp [step, h]
    rw [run, hs] at hr
    cases hr

theorem expect_of_result? {v : Json} (h : m.result? = some v) : m.expect = .done v := by
  unfold result? at h
  split at h
  · rw [‹m.expect = _›, Option.some.inj h]
  · cases h

end Machine

/-! ## Whole objects -/

theorem read?_iff {r : Reader} {cs : List Char} {v : Json} : r.read? cs = some v ↔
    ∃ ts m, tokens? cs = some ts ∧ Machine.start.run r ts = some m ∧ m.result? = some v := by
  simp only [Reader.read?, Option.bind_eq_bind, Option.bind_eq_some_iff]
  constructor
  · rintro ⟨ts, ht, m, hm, hv⟩
    exact ⟨ts, m, ht, hm, hv⟩
  · rintro ⟨ts, m, ht, hm, hv⟩
    exact ⟨ts, ht, m, hm, hv⟩

theorem tokens?_iff {cs : List Char} {ts : List Token} : tokens? cs = some ts ↔
    ∃ p last, LexState.between.run cs = some p ∧ p.1.scalar? = some last ∧ ts = p.2 ++ last := by
  simp only [tokens?, Option.bind_eq_bind, Option.bind_eq_some_iff, Option.pure_def,
    Option.some_inj]
  constructor
  · rintro ⟨p, hp, last, hl, rfl⟩
    exact ⟨p, last, hp, hl, rfl⟩
  · rintro ⟨p, last, hp, hl, rfl⟩
    exact ⟨p, hp, last, hl, rfl⟩

/-- Blanks in front make no difference. -/
theorem tokens?_blanks_append {front cs : List Char} (h : ∀ c ∈ front, Text.isBlank c = true)
    {p : LexState × List Token} (hp : LexState.between.run front = some p) :
    tokens? (front ++ cs) = tokens? cs := by
  obtain rfl := LexState.run_blanks h hp
  simp only [tokens?, LexState.run_append_of_eq hp, List.nil_append]
  cases LexState.between.run cs <;> rfl

/-- Behind a whole object no token can follow. -/
theorem exists_run_of_closeBrace {r : Reader} {cs rest : List Char} {u v : Json}
    (hw : r.read? (cs ++ ['}']) = some u) (hv : r.read? (cs ++ ['}'] ++ rest) = some v) :
    v = u ∧ ∃ t, LexState.between.run rest = some (t, []) ∧ t.scalar? = some [] := by
  obtain ⟨ts, m, ht, hm, hu⟩ := read?_iff.mp hw
  obtain ⟨us, m', hus, hm', hv'⟩ := read?_iff.mp hv
  obtain ⟨p, last, hp, hl, rfl⟩ := tokens?_iff.mp hus
  rw [LexState.run_append_of_eq (LexState.run_closeBrace ht)] at hp
  obtain ⟨⟨t, tokens⟩, hq, rfl⟩ := Option.map_eq_some_iff.mp hp
  -- The machine is done with the object.
  rw [List.append_assoc, Machine.run_append, hm, Option.bind_some] at hm'
  obtain ⟨hn, rfl⟩ := Machine.run_of_done (Machine.expect_of_result? hu) hm'
  obtain ⟨rfl, rfl⟩ := List.append_eq_nil_iff.mp hn
  exact ⟨Option.some.inj (hv'.symm.trans hu), t, hq, hl⟩

/-- What is read after a whole object and what follows it is the object, and blanks make no
difference to it. -/
theorem read?_of_closeBrace {r : Reader} {cs back rest : List Char} {u v : Json}
    (hw : r.read? (cs ++ ['}']) = some u) (hv : r.read? (cs ++ ['}'] ++ (back ++ rest)) = some v)
    (hb : ∀ c ∈ back, Text.isBlank c = true) : r.read? (cs ++ ['}'] ++ back) = some v := by
  obtain ⟨rfl, t, hq, -⟩ := exists_run_of_closeBrace hw hv
  obtain ⟨ts, m, ht, hm, hu⟩ := read?_iff.mp hw
  obtain ⟨p, hp⟩ := LexState.exists_run_of_append hq
  obtain rfl := LexState.run_blanks hb hp
  have hs : LexState.between.run (cs ++ ['}'] ++ back) = some (.between, ts) := by
    rw [LexState.run_append_of_eq (LexState.run_closeBrace ht), hp, Option.map_some,
      List.append_nil]
  exact read?_iff.mpr ⟨ts, m, tokens?_iff.mpr ⟨_, [], hs, rfl, (List.append_nil ts).symm⟩, hm, hu⟩

/-- A front of a text that is a whole object reads as the text does. -/
theorem parse?_of_isWholeObject {front rest : String} {v : Json}
    (hw : Relay.isWholeObject front = true) (h : parse? (front ++ rest) = some v) :
    parse? front = some v := by
  obtain ⟨a, b, he, ha, hb⟩ := Text.exists_eq_trimChars front.toList
  simp only [Relay.isWholeObject, Bool.and_eq_true, beq_iff_eq] at hw
  obtain ⟨⟨-, hl⟩, hr⟩ := hw
  obtain ⟨u, hu⟩ := Option.isSome_iff_exists.mp hr
  obtain ⟨x, hx⟩ := List.getLast?_eq_some_iff.mp hl
  rw [hx] at he hu
  unfold parse? at h ⊢
  rw [String.toList_append, he, List.append_assoc] at h
  obtain ⟨ts, m, ht, hm, hv⟩ := read?_iff.mp h
  obtain ⟨q, last, hq, -, -⟩ := tokens?_iff.mp ht
  obtain ⟨p, hp⟩ := LexState.exists_run_of_append hq
  have hread : ∀ cs, Reader.standard.read? (a ++ cs) = Reader.standard.read? cs := fun cs => by
    simp only [Reader.read?, tokens?_blanks_append ha hp]
  rw [he, hread]
  rw [hread, List.append_assoc] at h
  exact read?_of_closeBrace hu h hb

/-- A whole object in a text that reads as a value is followed by blanks. -/
theorem isBlankText_of_isWholeObject {front rest : String} {v : Json}
    (hw : Relay.isWholeObject front = true)
    (h : Reader.standard.read? (Text.trimChars (front ++ rest).toList) = some v) :
    Text.isBlankText rest = true := by
  obtain ⟨a, b, he, ha, -⟩ := Text.exists_eq_trimChars front.toList
  simp only [Relay.isWholeObject, Bool.and_eq_true, beq_iff_eq] at hw
  obtain ⟨⟨hf, hl⟩, hr⟩ := hw
  obtain ⟨u, hu⟩ := Option.isSome_iff_exists.mp hr
  obtain ⟨x, hx⟩ := List.getLast?_eq_some_iff.mp hl
  obtain ⟨y, hy⟩ := List.head?_eq_some_iff.mp hf
  -- Its braces are not blank, so that the blanks are cut off before and behind it.
  have ht : Text.trimChars (front ++ rest).toList =
      x ++ ['}'] ++ Text.trimEndChars (b ++ rest.toList) := by
    rw [String.toList_append, he, List.append_assoc, List.append_assoc, hy, Text.trimChars,
      List.cons_append, Text.trimStartChars_append_of_blank ha (by decide), ← List.cons_append,
      ← hy, hx, Text.trimEndChars_append_concat (by decide)]
  rw [hx] at hu
  rw [ht] at h
  obtain ⟨-, t, hq, hs⟩ := exists_run_of_closeBrace hu h
  have hb := Text.isBlank_of_trimEndChars (LexState.isBlank_of_run hq hs)
  rw [Text.isBlankText, List.all_eq_true]
  exact fun c hc => hb c (List.mem_append_right b hc)

/-- A text of blanks is no value. -/
theorem isBlankText_of_parse? {s : String} {v : Json} (h : parse? s = some v) :
    Text.isBlankText s = false := by
  by_contra hb
  rw [Bool.not_eq_false, Text.isBlankText, List.all_eq_true] at hb
  obtain ⟨ts, m, ht, hm, hv⟩ := read?_iff.mp h
  obtain ⟨p, last, hp, hl, rfl⟩ := tokens?_iff.mp ht
  obtain rfl := LexState.run_blanks hb hp
  obtain rfl := Option.some.inj hl
  obtain rfl := Option.some.inj hm
  cases hv

end Switchboard.Json
