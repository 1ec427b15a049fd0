import Switchboard.Json.Printer
import Switchboard.Proofs.Json.Sorted
import Switchboard.Proofs.Json.Whole

/-!
# What is written is read back

A value with whole numbers of 64 bits that is not nested too deep is read back from its text
(`parse?_render`).

Between the text and the value stand the tokens (`tokens`). The lexer finds them in the text,
also with a mark behind it that ends it (`run_print`), and the machine takes them for the
value, whatever frames are open around it (`Machine.run_tokens`). Both are inductions on the
value.
-/

namespace Switchboard

/-! ## Digits -/

namespace Numeral

/-- The digits of a number as they are read. -/
def digitsOf (n : Nat) : List Nat := (writeNat n).map fun c => c.toNat - '0'.toNat

theorem digits_of_isDigit {cs : List Char} (h : ∀ c ∈ cs, c.isDigit = true) :
    digits cs = (cs.map fun c => c.toNat - '0'.toNat, []) := by
  induction cs with
  | nil => rfl
  | cons c cs ih =>
    simp only [List.mem_cons, forall_eq_or_imp] at h
    rw [digits, digit?, if_pos h.1]
    simp only [ih h.2, List.map_cons]

theorem isDigit_of_mem_writeNat {n : Nat} {c : Char} (h : c ∈ writeNat n) : c.isDigit = true :=
  Nat.isDigit_of_mem_toDigits (by decide) (by decide) h

theorem digits_writeNat (n : Nat) : digits (writeNat n) = (digitsOf n, []) :=
  digits_of_isDigit fun _ => isDigit_of_mem_writeNat

theorem decimalValue_digitsOf (n : Nat) : decimalValue (digitsOf n) = n := by
  have h : Nat.ofDigitChars 10 (writeNat n) 0 = n :=
    Nat.ofDigitChars_toDigits (by decide) (by decide)
  rw [decimalValue, digitsOf, List.foldl_map]
  simpa only [Nat.ofDigitChars, Nat.mul_comm 10] using h

theorem digitsOf_ne_nil (n : Nat) : digitsOf n ≠ [] := by simp [digitsOf, writeNat]

/-- Only zero begins with a zero. -/
theorem head?_digitsOf {n : Nat} (pos : 0 < n) : (digitsOf n).head? ≠ some 0 := by
  induction n using Nat.strongRecOn with
  | ind n ih =>
    by_cases small : n < 10
    · -- a single digit is its own number
      rw [digitsOf, writeNat, Nat.toDigits_of_lt_base small]
      have all : ∀ m : Fin 10, 0 < m.val →
          ([m.val.digitChar].map fun c => c.toNat - '0'.toNat).head? ≠ some 0 := by decide
      exact all ⟨n, small⟩ pos
    · have front : 0 < n / 10 := Nat.div_pos (Nat.not_lt.mp small) (by decide)
      have last : digitsOf n = digitsOf (n / 10) ++ [(n % 10).digitChar.toNat - '0'.toNat] := by
        rw [digitsOf, writeNat, Nat.toDigits_of_base_le (by decide) (Nat.not_lt.mp small),
          List.map_append]
        rfl
      rw [last, List.head?_append_of_ne_nil _ (digitsOf_ne_nil _)]
      exact ih (n / 10) (Nat.div_lt_self pos (by decide)) front

/-- The parts of a whole number. -/
def partsOf (i : Int) : Parts := ⟨decide (i < 0), digitsOf i.natAbs, none, none⟩

/-- The digits of a number are written without leading zeros. -/
theorem digitsOf_cases (n : Nat) :
    digitsOf n = [0] ∨ ∃ d ds, digitsOf n = (d + 1) :: ds := by
  rcases Nat.eq_zero_or_pos n with rfl | pos
  · exact .inl rfl
  · obtain ⟨d, ds, h⟩ := List.exists_cons_of_ne_nil (digitsOf_ne_nil n)
    have first := head?_digitsOf pos
    rw [h, List.head?_cons] at first
    obtain ⟨m, rfl⟩ := Nat.exists_eq_succ_of_ne_zero fun zero => first (congrArg some zero)
    exact .inr ⟨m, ds, h⟩

/-- The digits of a number, with a sign before them or not, are all of a numeral. -/
theorem parts?_digits (negative : Bool) (n : Nat) :
    parts? ((if negative then ['-'] else []) ++ writeNat n) =
      some ⟨negative, digitsOf n, none, none⟩ := by
  -- `simp` needs this to see that a number without a sign is not one with a sign
  have nosign : ∀ r, writeNat n = '-' :: r → False := fun r h =>
    absurd (isDigit_of_mem_writeNat (h ▸ List.mem_cons_self)) (by decide)
  cases negative with
  | true =>
    simp only [parts?, if_true, List.singleton_append, digits_writeNat]
    rcases digitsOf_cases n with h | ⟨d, ds, h⟩ <;> rw [h] <;> rfl
  | false =>
    simp only [parts?, Bool.false_eq_true, if_false, List.nil_append, digits_writeNat]
    rcases digitsOf_cases n with h | ⟨d, ds, h⟩ <;> rw [h] <;> rfl

theorem parts?_writeInt (i : Int) : parts? (writeInt i) = some (partsOf i) := by
  cases i with
  | ofNat n => exact parts?_digits false n
  | negSucc n =>
    have negative : decide (Int.negSucc n < 0) = true := decide_eq_true (Int.negSucc_lt_zero n)
    rw [partsOf, negative]
    exact parts?_digits true (n + 1)

/-! ### Values -/

theorem le_foldl_digits (ds : List Nat) (n : Nat) : n ≤ ds.foldl (fun n d => n * 10 + d) n := by
  induction ds generalizing n with
  | nil => exact Nat.le_refl n
  | cons d ds ih => exact Nat.le_trans (by omega) (ih (n * 10 + d))

/-- All digits of a number that fits are taken. -/
theorem extend_eq {ds : List Nat} {n : Nat}
    (fits : ds.foldl (fun n d => n * 10 + d) n ≤ significandLimit) :
    extend n ds = (ds.foldl (fun n d => n * 10 + d) n, []) := by
  induction ds generalizing n with
  | nil => rfl
  | cons d ds ih =>
    have small : n * 10 + d ≤ significandLimit := Nat.le_trans (le_foldl_digits ds _) fits
    rw [extend, if_pos small]
    exact ih fits

/-- A whole number of 64 bits is the value of its parts. -/
theorem value_partsOf {i : Int} (low : -9223372036854775808 ≤ i) (high : i ≤ 18446744073709551615) :
    (partsOf i).value = some (.whole i) := by
  have limit : significandLimit = 18446744073709551615 := by decide
  have bound : Nat.pow 2 63 = 9223372036854775808 := by decide
  have digits : extend 0 (digitsOf i.natAbs) = (i.natAbs, []) := by
    have fits : decimalValue (digitsOf i.natAbs) ≤ significandLimit := by
      rw [decimalValue_digitsOf]
      omega
    rw [extend_eq fits]
    exact congrArg (·, []) (decimalValue_digitsOf _)
  have whole : (partsOf i).whole? = some i := by
    simp only [Parts.whole?, partsOf, digits, bound, Option.isSome_none, List.isEmpty_nil,
      Bool.not_true, Bool.or_self, Bool.false_eq_true, if_false]
    by_cases negative : i < 0
    · have fits : ¬ (i.natAbs = 0 ∨ 9223372036854775808 < i.natAbs) := by omega
      have value : -(i.natAbs : Int) = i := by omega
      rw [decide_eq_true negative, if_neg fits, value]
      rfl
    · have value : (i.natAbs : Int) = i := by omega
      rw [decide_eq_false negative, value]
      rfl
  rw [Parts.value, whole]

end Numeral

namespace Json

/-! ## The tokens of a value -/

mutual

/-- The tokens that the text of a value consists of. -/
def tokens : Json → List Token
  | .number n => ((Numeral.parts? (Numeral.write n)).map .numeral).toList
  | .array items => .openArray :: itemTokens items
  | .object members => .openObject :: memberTokens members
  | scalar => [.scalar scalar]

/-- The tokens after an opening bracket, to the closing one. -/
def itemTokens : List Json → List Token
  | [] => [.closeArray]
  | [item] => item.tokens ++ [.closeArray]
  | item :: rest => item.tokens ++ .comma :: itemTokens rest

/-- The tokens after an opening brace, to the closing one. -/
def memberTokens : List (String × Json) → List Token
  | [] => [.closeObject]
  | [(key, value)] => .scalar (.string key) :: .colon :: (value.tokens ++ [.closeObject])
  | (key, value) :: rest =>
    .scalar (.string key) :: .colon :: (value.tokens ++ .comma :: memberTokens rest)

end

theorem itemTokens_cons_cons (item next : Json) (rest : List Json) :
    itemTokens (item :: next :: rest) = item.tokens ++ .comma :: itemTokens (next :: rest) := by
  simp [itemTokens]

theorem tokens_whole (i : Int) :
    tokens (.number (.whole i)) = [.numeral (Numeral.partsOf i)] := by
  simp [tokens, Numeral.write, Numeral.parts?_writeInt]

/-! ## Reading characters -/

namespace LexState

/-! ### Texts -/

/-- A character as it stands in a text is read as that character. -/
theorem run_escapeChar (back : List Char) (c : Char) :
    (text back).run (escapeChar c) = some (text (c :: back), []) := by
  unfold escapeChar
  split_ifs with quote backslash b f n r t control
  · rw [quote]; rfl
  · rw [backslash]; rfl
  · rw [b]; rfl
  · rw [f]; rfl
  · rw [n]; rfl
  · rw [r]; rfl
  · rw [t]; rfl
  · have high : Text.hexDigit? (c.toNat / 16).digitChar = some (c.toNat / 16) :=
      Text.hexDigit?_digitChar (by omega)
    have low : Text.hexDigit? (c.toNat % 16).digitChar = some (c.toNat % 16) :=
      Text.hexDigit?_digitChar (by omega)
    have zero : Text.hexDigit? '0' = some 0 := by decide
    have unit : codeUnit back none c.toNat = text (c :: back) := by
      have noHigh : ¬ 0xD800 ≤ c.toNat := by omega
      have noLow : ¬ 0xDC00 ≤ c.toNat := by omega
      simp [codeUnit, noHigh, noLow]
    have value : c.toNat / 16 * 16 + c.toNat % 16 = c.toNat := by omega
    simp [run, step, zero, high, low, value, unit]
  · simp [run, step, quote, backslash, control]

theorem run_escapeChars (back cs : List Char) :
    (text back).run (cs.flatMap escapeChar) = some (text (cs.reverse ++ back), []) := by
  induction cs generalizing back with
  | nil => rfl
  | cons c cs ih =>
    rw [List.flatMap_cons, run_append_of_eq (run_escapeChar back c), ih]
    simp

theorem run_quoted (s : String) :
    between.run (quoted s) = some (between, [.scalar (.string s)]) := by
  have opening : between.run ['"'] = some (text [], []) := rfl
  have closing : (text s.toList.reverse).run ['"'] =
      some (between, [.scalar (.string s)]) := by
    simp [run, step]
  have body := run_escapeChars [] s.toList
  rw [List.append_nil] at body
  rw [quoted, ← List.singleton_append, List.append_assoc, run_append_of_eq opening,
    run_append_of_eq body, closing]
  rfl

/-! ### Numbers -/

theorem run_digits {back cs : List Char} (h : ∀ c ∈ cs, c.isDigit = true) :
    (numeral back).run cs = some (numeral (cs.reverse ++ back), []) := by
  induction cs generalizing back with
  | nil => rfl
  | cons c cs ih =>
    simp only [List.mem_cons, forall_eq_or_imp] at h
    have goesOn : inNumeral c = true := by simp [inNumeral, h.1]
    simp [run, step, goesOn, ih h.2]

theorem start_of_isDigit {c : Char} (h : c.isDigit = true) :
    start c = some (numeral [c], []) := by
  have noBlank : isBlank c = false := by
    by_contra blank
    simp only [isBlank, Bool.not_eq_false, Bool.or_eq_true, decide_eq_true_eq] at blank
    rcases blank with ((rfl | rfl) | rfl) | rfl <;> cases h
  unfold start
  rw [if_neg (by simp [noBlank])]
  split
  case h_8 => rw [if_pos (by simp [h])]
  all_goals cases h

theorem run_writeInt (i : Int) :
    between.run (Numeral.writeInt i) = some (numeral (Numeral.writeInt i).reverse, []) := by
  have nat : ∀ n, between.run (Numeral.writeNat n) =
      some (numeral (Numeral.writeNat n).reverse, []) := by
    intro n
    obtain ⟨c, cs, h⟩ := List.exists_cons_of_ne_nil (l := Numeral.writeNat n) Nat.toDigits_ne_nil
    have digits : ∀ d ∈ c :: cs, d.isDigit = true := fun d hd =>
      Numeral.isDigit_of_mem_writeNat (h ▸ hd)
    simp only [List.mem_cons, forall_eq_or_imp] at digits
    have first : between.step c = some (numeral [c], []) := start_of_isDigit digits.1
    rw [h, run, first]
    simp [run_digits digits.2]
  cases i with
  | ofNat n => exact nat n
  | negSucc n =>
    have sign : between.step '-' = some (numeral ['-'], []) := rfl
    have digits : (numeral ['-']).run (Numeral.writeNat (n + 1)) =
        some (numeral ((Numeral.writeNat (n + 1)).reverse ++ ['-']), []) :=
      run_digits fun _ => Numeral.isDigit_of_mem_writeNat
    rw [Numeral.writeInt, run, sign]
    simp [digits]

/-! ### Values -/

/-- What stands behind a value inside another one. -/
inductive Mark : Char → Token → Prop
  | comma : Mark ',' .comma
  | closeArray : Mark ']' .closeArray
  | closeObject : Mark '}' .closeObject

section

variable {d : Char} {t : Token} {xs ys : List Char} {ts us : List Token}

theorem Mark.run (h : Mark d t) : between.run [d] = some (between, [t]) := by
  cases h <;> rfl

/-- A mark ends a numeral or a word. -/
theorem Mark.run_of_scalar (h : Mark d t) {s : LexState} {back : List Char}
    (isOpen : s = numeral back ∨ s = word back) (done : s.scalar? = some ts) :
    s.run [d] = some (between, ts ++ [t]) := by
  have strange : inNumeral d = false ∧ d.isLower = false := by cases h <;> exact ⟨rfl, rfl⟩
  have begins : start d = some (between, [t]) := by cases h <;> rfl
  rcases isOpen with rfl | rfl <;> simp [LexState.run, step, strange, done, begins]

theorem run_append_between (hx : between.run xs = some (between, ts))
    (hy : between.run ys = some (between, us)) :
    between.run (xs ++ ys) = some (between, ts ++ us) := by
  rw [run_append_of_eq hx, hy]
  rfl

theorem run_word {v : Json} (letters : between.run xs = some (word xs.reverse, []))
    (stands : word? xs = some v) (h : Mark d t) :
    between.run (xs ++ [d]) = some (between, [.scalar v, t]) := by
  have done : (word xs.reverse).scalar? = some [.scalar v] := by simp [scalar?, stands]
  rw [run_append_of_eq letters, h.run_of_scalar (.inr rfl) done]
  rfl

theorem run_writeInt_mark (i : Int) (h : Mark d t) :
    between.run (Numeral.writeInt i ++ [d]) =
      some (between, [.numeral (Numeral.partsOf i), t]) := by
  have done : (numeral (Numeral.writeInt i).reverse).scalar? =
      some [.numeral (Numeral.partsOf i)] := by simp [scalar?, Numeral.parts?_writeInt]
  rw [run_append_of_eq (run_writeInt i), h.run_of_scalar (.inl rfl) done]
  rfl

end

mutual

/-- The text of a value is read as its tokens, with a mark behind it that ends it. -/
theorem run_print : (v : Json) → v.isPlain → {d : Char} → {t : Token} → Mark d t →
    between.run (v.print ++ [d]) = some (between, v.tokens ++ [t])
  | .null, _, _, _, h | .bool true, _, _, _, h | .bool false, _, _, _, h => run_word rfl rfl h
  | .number (.whole i), _, _, _, h => by
    rw [tokens_whole]
    exact run_writeInt_mark i h
  | .number (.binary x), plain, _, _, _ => by cases plain
  | .string s, _, _, _, h => run_append_between (run_quoted s) h.run
  | .array items, plain, _, _, h => by
    have opening : between.run ['['] = some (between, [.openArray]) := rfl
    have body := run_printItems items (isPlain_array.mp plain)
    exact run_append_between (run_append_between opening body) h.run
  | .object members, plain, _, _, h => by
    have opening : between.run ['{'] = some (between, [.openObject]) := rfl
    have body := run_printMembers members (isPlain_object.mp plain).2
    exact run_append_between (run_append_between opening body) h.run

theorem run_printItems : (items : List Json) → (∀ item ∈ items, item.isPlain) →
    between.run (printItems items) = some (between, itemTokens items)
  | [], _ => rfl
  | [item], plain => run_print item (plain item List.mem_cons_self) .closeArray
  | item :: next :: items, plain => by
    have first := run_print item (plain item List.mem_cons_self) .comma
    have others := run_printItems (next :: items) fun v hv => plain v (List.mem_cons_of_mem _ hv)
    simpa [printItems, itemTokens] using run_append_between first others

theorem run_printMembers : (members : List (String × Json)) → (∀ m ∈ members, m.2.isPlain) →
    between.run (printMembers members) = some (between, memberTokens members)
  | [], _ => rfl
  | [(key, value)], plain => by
    have colon : between.run [':'] = some (between, [.colon]) := rfl
    have only := run_print value (plain _ List.mem_cons_self) .closeObject
    simpa [printMembers, memberTokens] using
      run_append_between (run_quoted key) (run_append_between colon only)
  | (key, value) :: next :: members, plain => by
    have colon : between.run [':'] = some (between, [.colon]) := rfl
    have first := run_print value (plain _ List.mem_cons_self) .comma
    have others := run_printMembers (next :: members)
      fun m hm => plain m (List.mem_cons_of_mem _ hm)
    simpa [printMembers, memberTokens] using run_append_between (run_quoted key)
      (run_append_between colon (run_append_between first others))

end

end LexState

/-- The text of a value is read as its tokens. -/
theorem tokens?_print {v : Json} (plain : v.isPlain) : tokens? v.print = some v.tokens := by
  rw [tokens?_iff]
  cases v with
  | null => exact ⟨(.word ['l', 'l', 'u', 'n'], []), [.scalar .null], rfl, rfl, rfl⟩
  | bool b =>
    cases b with
    | true => exact ⟨(.word ['e', 'u', 'r', 't'], []), [.scalar (.bool true)], rfl, rfl, rfl⟩
    | false =>
      exact ⟨(.word ['e', 's', 'l', 'a', 'f'], []), [.scalar (.bool false)], rfl, rfl, rfl⟩
  | number n =>
    cases n with
    | whole i =>
      refine ⟨_, [.numeral (Numeral.partsOf i)], LexState.run_writeInt i, ?_, tokens_whole i⟩
      simp [LexState.scalar?, Numeral.parts?_writeInt]
    | binary x => cases plain
  | string s => exact ⟨_, [], LexState.run_quoted s, rfl, rfl⟩
  | array items =>
    have opening : LexState.between.run ['['] = some (.between, [.openArray]) := rfl
    have body := LexState.run_printItems items (isPlain_array.mp plain)
    exact ⟨_, [], LexState.run_append_between opening body, rfl, (List.append_nil _).symm⟩
  | object members =>
    have opening : LexState.between.run ['{'] = some (.between, [.openObject]) := rfl
    have body := LexState.run_printMembers members (isPlain_object.mp plain).2
    exact ⟨_, [], LexState.run_append_between opening body, rfl, (List.append_nil _).symm⟩

/-! ## Reading tokens -/

mutual

/-- How many arrays and objects are open at once in a value. -/
def depth : Json → Nat
  | .array items => itemsDepth items + 1
  | .object members => membersDepth members + 1
  | _ => 0

/-- How deep the deepest of the items is. -/
def itemsDepth : List Json → Nat
  | [] => 0
  | item :: rest => max item.depth (itemsDepth rest)

/-- How deep the deepest value of the members is. -/
def membersDepth : List (String × Json) → Nat
  | [] => 0
  | (_, value) :: rest => max value.depth (membersDepth rest)

end

/-- A value does not begin with a bracket that closes. -/
theorem exists_tokens_eq_cons {v : Json} (plain : v.isPlain) :
    ∃ t ts, v.tokens = t :: ts ∧ t ≠ .closeArray := by
  cases v with
  | null => exact ⟨_, _, rfl, nofun⟩
  | bool b => exact ⟨_, _, rfl, nofun⟩
  | number n =>
    cases n with
    | whole i => exact ⟨_, _, tokens_whole i, nofun⟩
    | binary x => cases plain
  | string s => exact ⟨_, _, rfl, nofun⟩
  | array items => exact ⟨_, _, rfl, nofun⟩
  | object members => exact ⟨_, _, rfl, nofun⟩

namespace Machine

variable {frames : List Frame}

/-- In an array that holds nothing yet a value begins as in one that waits for a value. -/
theorem run_first (kept : place .standard frames = .whole) {t : Token} (ht : t ≠ .closeArray)
    (ts : List Token) : run .standard ⟨frames, .first⟩ (t :: ts) =
      run .standard ⟨.array .whole [] :: frames, .value⟩ (t :: ts) := by
  have begin : step .standard ⟨frames, .first⟩ t =
      step .standard ⟨.array .whole [] :: frames, .value⟩ t := by
    rw [← kept]
    cases t with
    | closeArray => exact absurd rfl ht
    | _ => rfl
  rw [run, run, begin]

theorem give_member (back : List (String × Json)) (key : String) (v : Json) :
    give (.object .whole back key :: frames) v = ⟨frames, .moreMembers ((key, v) :: back)⟩ := rfl

mutual

/-- The tokens of a value are taken for that value. -/
theorem run_tokens : (v : Json) → v.isPlain → {frames : List Frame} →
    place .standard frames = .whole → frames.length + v.depth ≤ 127 → (ts : List Token) →
    run .standard ⟨frames, .value⟩ (v.tokens ++ ts) = run .standard (give frames v) ts
  | .null, _, _, _, _, _ | .bool _, _, _, _, _, _ | .string _, _, _, _, _, _ => rfl
  | .number (.whole i), plain, frames, kept, _, ts => by
    have range : -9223372036854775808 ≤ i ∧ i ≤ 18446744073709551615 := by
      simpa [isPlain] using plain
    have value : (Numeral.partsOf i).value = some (.whole i) :=
      Numeral.value_partsOf range.1 range.2
    have taken : step .standard ⟨frames, .value⟩ (.numeral (Numeral.partsOf i)) =
        some (give frames (.number (.whole i))) := by
      have number : Reader.standard.number (Numeral.partsOf i) = some (.whole i) := value
      simp [step, beginValue, kept, Shape.isSkipped, number]
    rw [tokens_whole, List.singleton_append, run, taken]
    rfl
  | .number (.binary x), plain, _, _, _, _ => by cases plain
  | .array items, plain, frames, kept, shallow, ts => by
    rw [depth] at shallow
    have opened : step .standard ⟨frames, .value⟩ .openArray = some ⟨frames, .first⟩ := by
      have room : frames.length < 127 := by omega
      simp [step, beginValue, Reader.standard, room]
    rw [tokens, List.cons_append, run, opened, Option.bind_some]
    cases items with
    | nil => rfl
    | cons item rest =>
      have items := isPlain_array.mp plain
      obtain ⟨t, more, first, ht⟩ : ∃ t more, itemTokens (item :: rest) = t :: more ∧
          t ≠ .closeArray := by
        obtain ⟨t, more, first, ht⟩ := exists_tokens_eq_cons (items item List.mem_cons_self)
        cases rest with
        | nil => exact ⟨t, _, by rw [itemTokens, first]; rfl, ht⟩
        | cons next rest => exact ⟨t, _, by rw [itemTokens_cons_cons, first]; rfl, ht⟩
      rw [first, List.cons_append, run_first kept ht, ← List.cons_append, ← first]
      exact run_itemTokens (item :: rest) (List.cons_ne_nil _ _) items [] kept (by omega) ts
  | .object members, plain, frames, kept, shallow, ts => by
    rw [depth] at shallow
    have opened : step .standard ⟨frames, .value⟩ .openObject = some ⟨frames, .firstKey⟩ := by
      have room : frames.length < 127 := by omega
      simp [step, beginValue, Reader.standard, room]
    rw [tokens, List.cons_append, run, opened, Option.bind_some]
    cases members with
    | nil => rfl
    | cons m rest =>
      have begin : run .standard ⟨frames, .firstKey⟩ (memberTokens (m :: rest) ++ ts) =
          run .standard ⟨frames, .key []⟩ (memberTokens (m :: rest) ++ ts) := by
        cases rest <;> rfl
      rw [begin]
      exact run_memberTokens (m :: rest) (List.cons_ne_nil _ _) (isPlain_object.mp plain).2 []
        kept (by omega) ts

/-- The items of an array are taken behind those that it has. -/
theorem run_itemTokens : (items : List Json) → items ≠ [] → (∀ item ∈ items, item.isPlain) →
    (back : List Json) → {frames : List Frame} → place .standard frames = .whole →
    frames.length + itemsDepth items < 127 → (ts : List Token) →
    run .standard ⟨.array .whole back :: frames, .value⟩ (itemTokens items ++ ts) =
      run .standard (give frames (.array (back.reverse ++ items))) ts
  | [], nonempty, _, _, _, _, _, _ => absurd rfl nonempty
  | [item], _, plain, back, frames, kept, shallow, ts => by
    rw [itemsDepth] at shallow
    rw [itemTokens, List.append_assoc,
      run_tokens item (plain item List.mem_cons_self) rfl (by simp; omega)]
    simp [run, step, give]
  | item :: next :: rest, _, plain, back, frames, kept, shallow, ts => by
    rw [itemsDepth] at shallow
    have others := run_itemTokens (next :: rest) (List.cons_ne_nil _ _)
      (fun v hv => plain v (List.mem_cons_of_mem _ hv)) (item :: back) kept (by omega) ts
    rw [itemTokens_cons_cons, List.append_assoc,
      run_tokens item (plain item List.mem_cons_self) rfl (by simp; omega)]
    simpa [run, step, give, kept] using others

/-- The members of an object are taken behind those that it has. -/
theorem run_memberTokens : (members : List (String × Json)) → members ≠ [] →
    (∀ m ∈ members, m.2.isPlain) → (back : List (String × Json)) → {frames : List Frame} →
    place .standard frames = .whole → frames.length + membersDepth members < 127 →
    (ts : List Token) →
    run .standard ⟨frames, .key back⟩ (memberTokens members ++ ts) =
      run .standard (give frames (.object (back.reverse ++ members))) ts
  | [], nonempty, _, _, _, _, _, _ => absurd rfl nonempty
  | [(key, value)], _, plain, back, frames, kept, shallow, ts => by
    rw [membersDepth] at shallow
    have inside : place .standard (.object .whole back key :: frames) = .whole := rfl
    have only := run_tokens value (plain _ List.mem_cons_self) inside (by simp; omega)
      (.closeObject :: ts)
    rw [give_member] at only
    simpa [memberTokens, run, step, key?, kept] using only
  | (key, value) :: next :: rest, _, plain, back, frames, kept, shallow, ts => by
    rw [membersDepth] at shallow
    have inside : place .standard (.object .whole back key :: frames) = .whole := rfl
    have first := run_tokens value (plain _ List.mem_cons_self) inside (by simp; omega)
      (.comma :: memberTokens (next :: rest) ++ ts)
    have others := run_memberTokens (next :: rest) (List.cons_ne_nil _ _)
      (fun m hm => plain m (List.mem_cons_of_mem _ hm)) ((key, value) :: back) kept (by omega) ts
    rw [give_member] at first
    simp only [List.reverse_cons, List.append_assoc, List.singleton_append] at others
    simpa [memberTokens, run, step, key?, kept, others] using first

end

end Machine

/-! ## Reading back -/

/-- The text of a value that is not nested too deep is read back as that value. -/
theorem parse?_render {v : Json} (plain : v.isPlain) (shallow : v.depth ≤ 127) :
    parse? v.render = some v := by
  have run : Machine.start.run .standard v.tokens = some ⟨[], .done v⟩ := by
    have outside : Machine.place .standard [] = .whole := rfl
    have whole := Machine.run_tokens v plain outside (by simpa using shallow) []
    rwa [List.append_nil] at whole
  rw [parse?, render, String.toList_ofList, read?_iff]
  exact ⟨v.tokens, ⟨[], .done v⟩, tokens?_print plain, run, rfl⟩

end Json

end Switchboard
