import LoopStorm.Lib.Json

/-!
# Reading JSON text

A recursive-descent reader for JSON text and its round trip with the compact
text of `LoopStorm.Lib.Json`.

* `readChars` — a string literal after its opening quote, with all the escapes
  of the grammar, surrogate pairs included; `readChars_escape` undoes
  `escapeChar`.
* `parseValue`, `parseElems`, `parseMembers` — the reader, on fuel; white space
  is allowed between tokens, numbers are kept as the text they were.
* `parse` — a whole document.
* `parse_render` — **what is written is read back**: the compact text of a
  value parses to that value, each number replaced by its text.
-/

namespace Json

variable {ν : Type}

/-! ## Tokens -/

/-- White space between tokens. -/
def isWs (c : Char) : Bool := c = ' ' || c = '\t' || c = '\n' || c = '\r'

/-- The text after its leading white space. -/
def skipWs (cs : List Char) : List Char := cs.dropWhile isWs

/-- The value of a hexadecimal digit. -/
def hexVal (c : Char) : Option Nat :=
  if 48 ≤ c.toNat ∧ c.toNat ≤ 57 then some (c.toNat - 48)
  else if 97 ≤ c.toNat ∧ c.toNat ≤ 102 then some (c.toNat - 87)
  else if 65 ≤ c.toNat ∧ c.toNat ≤ 70 then some (c.toNat - 55)
  else none

/-- The value of four hexadecimal digits. -/
def hex4 (a b c d : Char) : Option Nat := do
  let a ← hexVal a
  let b ← hexVal b
  let c ← hexVal c
  let d ← hexVal d
  return a * 4096 + b * 256 + c * 16 + d

/-- The character a two-character escape stands for. -/
def unescape (c : Char) : Option Char :=
  if c = '"' ∨ c = '\\' ∨ c = '/' then some c
  else if c = 'n' then some '\n'
  else if c = 'r' then some '\r'
  else if c = 't' then some '\t'
  else if c = 'b' then some (Char.ofNat 8)
  else if c = 'f' then some (Char.ofNat 12)
  else none

/-- Put a character in front of what the rest of a literal reads as. -/
def consChar (c : Char) : Option (List Char × List Char) → Option (List Char × List Char)
  | some (s, rest) => some (c :: s, rest)
  | none => none

/-- The contents of a string literal and the text after its closing quote. -/
def readChars : List Char → Option (List Char × List Char)
  | [] => none
  | c :: cs =>
    if c = '"' then some ([], cs)
    else if c = '\\' then
      match cs with
      | 'u' :: x₁ :: x₂ :: x₃ :: x₄ :: ds =>
        match hex4 x₁ x₂ x₃ x₄ with
        | none => none
        | some n =>
          if 0xD800 ≤ n ∧ n < 0xDC00 then
            match ds with
            | '\\' :: 'u' :: y₁ :: y₂ :: y₃ :: y₄ :: es =>
              match hex4 y₁ y₂ y₃ y₄ with
              | none => none
              | some m =>
                if 0xDC00 ≤ m ∧ m < 0xE000 then
                  consChar (Char.ofNat (0x10000 + (n - 0xD800) * 0x400 + (m - 0xDC00)))
                    (readChars es)
                else none
            | _ => none
          else if 0xDC00 ≤ n ∧ n < 0xE000 then none
          else consChar (Char.ofNat n) (readChars ds)
      | x :: ds =>
        match unescape x with
        | none => none
        | some y => consChar y (readChars ds)
      | [] => none
    else if c.toNat < 32 then none
    else consChar c (readChars cs)

/-- A fixed word at the front of a text. -/
def readWord (w : List Char) (v : Json String (List Char)) (cs : List Char) :
    Option (Json String (List Char) × List Char) :=
  if w <+: cs then some (v, cs.drop w.length) else none

/-- A number at the front of a text: the longest run of number characters. -/
def readNumber (cs : List Char) : Option (Json String (List Char) × List Char) :=
  if validNumber (cs.takeWhile isNumChar) then
    some (.num (cs.takeWhile isNumChar), cs.dropWhile isNumChar)
  else none

/-! ## Values -/

mutual
/-- A value at the front of a text and the text after it. -/
def parseValue : Nat → List Char → Option (Json String (List Char) × List Char)
  | 0, _ => none
  | fuel + 1, cs =>
    match skipWs cs with
    | [] => none
    | c :: r =>
      if c = '{' then
        match skipWs r with
        | '}' :: r' => some (.obj [], r')
        | _ => (parseMembers fuel r).map (fun p => (.obj p.1, p.2))
      else if c = '[' then
        match skipWs r with
        | ']' :: r' => some (.arr [], r')
        | _ => (parseElems fuel r).map (fun p => (.arr p.1, p.2))
      else if c = '"' then (readChars r).map (fun p => (.str (String.ofList p.1), p.2))
      else if c = 't' then readWord ['t', 'r', 'u', 'e'] (.bool true) (c :: r)
      else if c = 'f' then readWord ['f', 'a', 'l', 's', 'e'] (.bool false) (c :: r)
      else if c = 'n' then readWord ['n', 'u', 'l', 'l'] .null (c :: r)
      else readNumber (c :: r)

/-- The elements of an array up to its closing bracket. -/
def parseElems : Nat → List Char → Option (List (Json String (List Char)) × List Char)
  | 0, _ => none
  | fuel + 1, cs =>
    match parseValue fuel cs with
    | none => none
    | some (v, r) =>
      match skipWs r with
      | ',' :: r' => (parseElems fuel r').map (fun p => (v :: p.1, p.2))
      | ']' :: r' => some ([v], r')
      | _ => none

/-- The members of an object up to its closing brace. -/
def parseMembers : Nat → List Char → Option (List (String × Json String (List Char)) × List Char)
  | 0, _ => none
  | fuel + 1, cs =>
    match skipWs cs with
    | '"' :: r =>
      match readChars r with
      | none => none
      | some (k, r) =>
        match skipWs r with
        | ':' :: r =>
          match parseValue fuel r with
          | none => none
          | some (v, r) =>
            match skipWs r with
            | ',' :: r' =>
              (parseMembers fuel r').map (fun p => ((String.ofList k, v) :: p.1, p.2))
            | '}' :: r' => some ([(String.ofList k, v)], r')
            | _ => none
        | _ => none
    | _ => none
end

/-- A whole document: one value with nothing but white space after it. -/
def parse (cs : List Char) : Option (Json String (List Char)) :=
  match parseValue (cs.length + 1) cs with
  | some (v, r) => if skipWs r = [] then some v else none
  | none => none

/-! ## String literals read back -/

theorem hexVal_hexDigit {n : Nat} (h : n < 16) : hexVal (hexDigit n) = some n := by
  interval_cases n <;> decide

theorem hex4_control {n : Nat} (h : n < 32) :
    hex4 '0' '0' (hexDigit (n / 16)) (hexDigit (n % 16)) = some n := by
  have h0 : hexVal '0' = some 0 := by decide
  have h1 : hexVal (hexDigit (n / 16)) = some (n / 16) := hexVal_hexDigit (by omega)
  have h2 : hexVal (hexDigit (n % 16)) = some (n % 16) := hexVal_hexDigit (by omega)
  simp only [hex4, h0, h1, h2, Option.bind_eq_bind, Option.bind_some, pure, Option.some.injEq]
  omega

@[simp] theorem readChars_close (cs : List Char) : readChars ('"' :: cs) = some ([], cs) := by
  rw [readChars.eq_def]
  simp

theorem readChars_plain {c : Char} (h1 : c ≠ '"') (h2 : c ≠ '\\') (h3 : ¬ c.toNat < 32)
    (cs : List Char) : readChars (c :: cs) = consChar c (readChars cs) := by
  rw [readChars.eq_def]
  simp only [h1, h2, h3, if_false]

/-- An escaped character reads as the character. -/
theorem readChars_escapeChar (c : Char) (cs : List Char) :
    readChars (escapeChar c ++ cs) = consChar c (readChars cs) := by
  unfold escapeChar
  split_ifs with h1 h2 h3 h4 h5 h6 h7 h8
  · subst h1; simp [readChars, unescape]
  · subst h2; simp [readChars, unescape]
  · subst h3; simp [readChars, unescape]
  · subst h4; simp [readChars, unescape]
  · subst h5; simp [readChars, unescape]
  · have hc : c = Char.ofNat 8 := by rw [← h6, Char.ofNat_toNat]
    subst hc; simp [readChars, unescape]
  · have hc : c = Char.ofNat 12 := by rw [← h7, Char.ofNat_toNat]
    subst hc; simp [readChars, unescape]
  · have hx := hex4_control h8
    have hlow : ¬ 0xD800 ≤ c.toNat := by omega
    have hlow' : ¬ 0xDC00 ≤ c.toNat := by omega
    simp [readChars, hx, hlow, hlow']
  · rw [List.singleton_append, readChars_plain h1 h2 h8]

/-- The contents of a literal read back, up to the closing quote. -/
theorem readChars_escape (l rest : List Char) :
    readChars (l.flatMap escapeChar ++ '"' :: rest) = some (l, rest) := by
  induction l with
  | nil => simp
  | cons c cs ih =>
    rw [List.flatMap_cons, List.append_assoc, readChars_escapeChar, ih]
    rfl

/-! ## Values read back -/

/-- A text that cannot extend a number before it. -/
def NumEnd (rest : List Char) : Prop := ∀ c ∈ rest.head?, isNumChar c = false

theorem numEnd_cons {c : Char} (h : isNumChar c = false) (cs : List Char) : NumEnd (c :: cs) := by
  intro d hd
  simp only [List.head?_cons, Option.mem_def, Option.some.injEq] at hd
  rwa [← hd]

theorem readNumber_append {t : List Char} (h : IsNumber t) {rest : List Char}
    (hr : NumEnd rest) : readNumber (t ++ rest) = some (.num t, rest) := by
  have hrest : rest.takeWhile isNumChar = [] ∧ rest.dropWhile isNumChar = rest := by
    cases rest with
    | nil => simp
    | cons c cs => have := hr c rfl; simp [this]
  have h1 : t.takeWhile isNumChar = t := List.takeWhile_eq_self_iff.2 h.chars
  have h2 : t.dropWhile isNumChar = [] := List.dropWhile_eq_nil_iff.2 h.chars
  simp [readNumber, List.takeWhile_append, List.dropWhile_append, h1, h2, hrest, h.valid]

theorem number_ne_nil {t : List Char} (h : IsNumber t) : t ≠ [] := by
  rintro rfl
  exact absurd h.valid (by decide)

section RoundTrip

variable (nt : ν → List Char)

mutual
/-- The fuel the reader needs for a value. -/
def need : Json String ν → Nat
  | .arr xs => 1 + needL xs
  | .obj ms => 1 + needM ms
  | _ => 1

/-- The fuel the reader needs for the elements of an array. -/
def needL : List (Json String ν) → Nat
  | [] => 0
  | x :: xs => 1 + max (need x) (needL xs)

/-- The fuel the reader needs for the members of an object. -/
def needM : List (String × Json String ν) → Nat
  | [] => 0
  | (_, v) :: ms => 1 + max (need v) (needM ms)
end

/-- The first character of a rendered value is no white space and closes
nothing. -/
theorem render_head (hnt : ∀ n, IsNumber (nt n)) (v : Json String ν) :
    ∃ c cs, render quote nt v = c :: cs ∧ isWs c = false ∧ c ≠ ']' ∧ c ≠ '}' := by
  cases v with
  | null => exact ⟨_, _, rfl, rfl, by simp, by simp⟩
  | bool b => cases b <;> exact ⟨_, _, rfl, rfl, by simp, by simp⟩
  | num n =>
    obtain ⟨c, cs, hcs⟩ := List.exists_cons_of_ne_nil (number_ne_nil (hnt n))
    have hc : isNumChar c = true := (hnt n).chars c (by rw [hcs]; exact List.mem_cons_self ..)
    refine ⟨c, cs, hcs, ?_, ?_, ?_⟩
    · by_contra hw
      simp only [isWs, Bool.not_eq_false, Bool.or_eq_true, decide_eq_true_eq] at hw
      rcases hw with ((rfl | rfl) | rfl) | rfl <;> exact absurd hc (by decide)
    · rintro rfl; exact absurd hc (by decide)
    · rintro rfl; exact absurd hc (by decide)
  | str s => exact ⟨_, _, rfl, rfl, by simp, by simp⟩
  | arr xs => exact ⟨_, _, rfl, rfl, by simp, by simp⟩
  | obj ms => exact ⟨_, _, rfl, rfl, by simp, by simp⟩

theorem skipWs_cons {c : Char} (h : isWs c = false) (cs : List Char) :
    skipWs (c :: cs) = c :: cs := by
  simp [skipWs, h]

theorem skipWs_render (hnt : ∀ n, IsNumber (nt n)) (v : Json String ν) (rest : List Char) :
    skipWs (render quote nt v ++ rest) = render quote nt v ++ rest := by
  obtain ⟨c, cs, hcs, hw, -, -⟩ := render_head nt hnt v
  rw [hcs, List.cons_append, skipWs_cons hw]

/-- What the reader is to return for a value. -/
def ReadsBack (v : Json String ν) : Prop :=
  ∀ fuel rest, need v ≤ fuel → NumEnd rest →
    parseValue fuel (render quote nt v ++ rest) = some (mapNum nt v, rest)

theorem readsBack_num (hnt : ∀ n, IsNumber (nt n)) (n : ν) : ReadsBack nt (.num n) := by
  intro fuel rest hf hr
  obtain ⟨f, rfl⟩ : ∃ f, fuel = f + 1 := ⟨fuel - 1, by simp [need] at hf; omega⟩
  obtain ⟨c, cs, hcs⟩ := List.exists_cons_of_ne_nil (number_ne_nil (hnt n))
  have hc : isNumChar c = true := (hnt n).chars c (by rw [hcs]; exact List.mem_cons_self ..)
  have hne : ∀ d, isNumChar d = false → c ≠ d := by
    rintro d hd rfl
    rw [hc] at hd
    exact Bool.noConfusion hd
  have hread := readNumber_append (hnt n) hr
  rw [parseValue, skipWs_render nt hnt]
  simp only [render, mapNum] at hread ⊢
  rw [hcs, List.cons_append] at hread ⊢
  simp only [hne '{' rfl, hne '[' rfl, hne '"' rfl, hne 't' rfl, hne 'f' rfl, hne 'n' rfl,
    if_false]
  exact hread

/-- The elements of an array read back up to the closing bracket. -/
theorem parseElems_render {x : Json String ν}
    {xs : List (Json String ν)} (ih : ∀ y ∈ x :: xs, ReadsBack nt y) (rest : List Char) :
    ∀ fuel, needL (x :: xs) ≤ fuel →
      parseElems fuel (joinComma (renderL quote nt (x :: xs)) ++ ']' :: rest) =
        some (mapNumL nt (x :: xs), rest) := by
  induction xs generalizing x with
  | nil =>
    intro fuel hf
    simp only [needL] at hf
    obtain ⟨f, rfl⟩ : ∃ f, fuel = f + 1 := ⟨fuel - 1, by omega⟩
    have hx := ih x (List.mem_cons_self ..) f (']' :: rest) (by omega)
      (numEnd_cons rfl _)
    simp [renderL, joinComma, parseElems, hx, skipWs_cons (c := ']') rfl, mapNumL]
  | cons y ys ihx =>
    intro fuel hf
    rw [needL] at hf
    obtain ⟨f, rfl⟩ : ∃ f, fuel = f + 1 := ⟨fuel - 1, by omega⟩
    have hx := ih x (List.mem_cons_self ..) f
      (',' :: (joinComma (renderL quote nt (y :: ys)) ++ ']' :: rest)) (by omega)
      (numEnd_cons rfl _)
    have hxs := ihx (fun z hz => ih z (List.mem_cons_of_mem _ hz)) f (by omega)
    have htext : joinComma (renderL quote nt (x :: y :: ys)) ++ ']' :: rest =
        render quote nt x ++ (',' :: (joinComma (renderL quote nt (y :: ys)) ++ ']' :: rest)) := by
      simp [renderL, joinComma]
    rw [htext, parseElems, hx]
    simp only [skipWs_cons (c := ',') rfl, hxs, Option.map_some]
    rfl

/-- The members of an object read back up to the closing brace. -/
theorem parseMembers_render {m : String × Json String ν}
    {ms : List (String × Json String ν)} (ih : ∀ p ∈ m :: ms, ReadsBack nt p.2)
    (rest : List Char) : ∀ fuel, needM (m :: ms) ≤ fuel →
      parseMembers fuel (joinComma (renderM quote nt (m :: ms)) ++ '}' :: rest) =
        some (mapNumM nt (m :: ms), rest) := by
  induction ms generalizing m with
  | nil =>
    intro fuel hf
    obtain ⟨k, v⟩ := m
    simp only [needM] at hf
    obtain ⟨f, rfl⟩ : ∃ f, fuel = f + 1 := ⟨fuel - 1, by omega⟩
    have hk0 : ReadsBack nt v := ih (k, v) (List.mem_cons_self ..)
    have hv := hk0 f ('}' :: rest) (by omega) (numEnd_cons rfl _)
    have hk := readChars_escape k.toList (':' :: (render quote nt v ++ '}' :: rest))
    simp [renderM, joinComma, quote, parseMembers, skipWs_cons (c := '"') rfl, hk,
      skipWs_cons (c := ':') rfl, hv, skipWs_cons (c := '}') rfl, mapNumM]
  | cons n ns ihm =>
    intro fuel hf
    obtain ⟨k, v⟩ := m
    rw [needM] at hf
    obtain ⟨f, rfl⟩ : ∃ f, fuel = f + 1 := ⟨fuel - 1, by omega⟩
    have hk0 : ReadsBack nt v := ih (k, v) (List.mem_cons_self ..)
    have hv := hk0 f (',' :: (joinComma (renderM quote nt (n :: ns)) ++ '}' :: rest)) (by omega)
      (numEnd_cons rfl _)
    have hms := ihm (fun z hz => ih z (List.mem_cons_of_mem _ hz)) f (by omega)
    have hk := readChars_escape k.toList (':' :: (render quote nt v ++
      (',' :: (joinComma (renderM quote nt (n :: ns)) ++ '}' :: rest))))
    have htext : joinComma (renderM quote nt ((k, v) :: n :: ns)) ++ '}' :: rest =
        '"' :: (k.toList.flatMap escapeChar ++ '"' :: ':' :: (render quote nt v ++
          (',' :: (joinComma (renderM quote nt (n :: ns)) ++ '}' :: rest)))) := by
      obtain ⟨k', v'⟩ := n
      simp [renderM, joinComma, quote]
    rw [htext, parseMembers]
    simp only [skipWs_cons (c := '"') rfl, hk, skipWs_cons (c := ':') rfl, hv,
      skipWs_cons (c := ',') rfl, hms, Option.map_some, String.ofList_toList]
    rfl

/-- Every value reads back, each number as its text. -/
theorem readsBack (hnt : ∀ n, IsNumber (nt n)) (v : Json String ν) : ReadsBack nt v := by
  induction v using Json.induction with
  | null =>
    intro fuel rest hf hr
    obtain ⟨f, rfl⟩ : ∃ f, fuel = f + 1 := ⟨fuel - 1, by simp [need] at hf; omega⟩
    simp [render, parseValue, skipWs, isWs, readWord, mapNum]
  | bool b =>
    intro fuel rest hf hr
    obtain ⟨f, rfl⟩ : ∃ f, fuel = f + 1 := ⟨fuel - 1, by simp [need] at hf; omega⟩
    cases b <;> simp [render, parseValue, skipWs, isWs, readWord, mapNum]
  | num n => exact readsBack_num nt hnt n
  | str s =>
    intro fuel rest hf hr
    obtain ⟨f, rfl⟩ : ∃ f, fuel = f + 1 := ⟨fuel - 1, by simp [need] at hf; omega⟩
    have hs := readChars_escape s.toList rest
    simp [render, quote, parseValue, skipWs, isWs, hs, mapNum]
  | arr xs ih =>
    intro fuel rest hf hr
    rw [need] at hf
    obtain ⟨f, rfl⟩ : ∃ f, fuel = f + 1 := ⟨fuel - 1, by omega⟩
    cases xs with
    | nil => simp [render, renderL, joinComma, parseValue, skipWs, isWs, mapNum, mapNumL]
    | cons x xs =>
      obtain ⟨t, ht⟩ : ∃ t, joinComma (renderL quote nt (x :: xs)) = render quote nt x ++ t := by
        cases xs with
        | nil => exact ⟨[], by simp [renderL, joinComma]⟩
        | cons y ys => exact ⟨_, by rw [renderL, renderL, joinComma]⟩
      obtain ⟨c, cs, hcs, hw, hne, -⟩ := render_head nt hnt x
      have helems := parseElems_render nt ih rest f (by omega)
      have htext : render quote nt (.arr (x :: xs)) ++ rest =
          '[' :: (joinComma (renderL quote nt (x :: xs)) ++ ']' :: rest) := by simp [render]
      have hopen : joinComma (renderL quote nt (x :: xs)) ++ ']' :: rest =
          c :: (cs ++ t ++ ']' :: rest) := by rw [ht, hcs]; simp
      rw [htext, parseValue, skipWs_cons (c := '[') rfl]
      rw [hopen] at helems ⊢
      simp only [skipWs_cons hw, helems, show ('[' : Char) ≠ '{' by decide, if_false, if_true,
        Option.map_some]
      split
      · rename_i heq
        simp only [List.cons.injEq] at heq
        exact absurd heq.1 hne
      · rfl
  | obj ms ih =>
    intro fuel rest hf hr
    rw [need] at hf
    obtain ⟨f, rfl⟩ : ∃ f, fuel = f + 1 := ⟨fuel - 1, by omega⟩
    cases ms with
    | nil => simp [render, renderM, joinComma, parseValue, skipWs, isWs, mapNum, mapNumM]
    | cons m ms =>
      obtain ⟨k, v⟩ := m
      obtain ⟨t, ht⟩ : ∃ t, joinComma (renderM quote nt ((k, v) :: ms)) = '"' :: t := by
        cases ms with
        | nil => exact ⟨_, by rw [renderM, renderM, joinComma, quote, List.cons_append]⟩
        | cons n ns =>
          obtain ⟨k', v'⟩ := n
          exact ⟨_, by rw [renderM, renderM, joinComma, quote, List.cons_append, List.cons_append]⟩
      have hmembers := parseMembers_render nt ih rest f (by omega)
      have htext : render quote nt (.obj ((k, v) :: ms)) ++ rest =
          '{' :: (joinComma (renderM quote nt ((k, v) :: ms)) ++ '}' :: rest) := by simp [render]
      rw [htext, parseValue, skipWs_cons (c := '{') rfl]
      rw [ht, List.cons_append] at hmembers ⊢
      simp only [skipWs_cons (c := '"') rfl, hmembers, if_true, Option.map_some]
      rfl

/-! ## Whole documents -/

theorem need_le_length (hnt : ∀ n, IsNumber (nt n)) (v : Json String ν) :
    need v ≤ (render quote nt v).length := by
  induction v using Json.induction with
  | null => simp [need, render]
  | bool b => cases b <;> simp [need, render]
  | num n =>
    have := List.length_pos_of_ne_nil (number_ne_nil (hnt n))
    simp only [need, render]
    omega
  | str s => simp [need, render, quote]
  | arr xs ih =>
    have h : ∀ l : List (Json String ν), (∀ y ∈ l, need y ≤ (render quote nt y).length) →
        needL l ≤ (joinComma (renderL quote nt l)).length + 1 := by
      intro l
      induction l with
      | nil => intro _; simp [needL]
      | cons x xs ihx =>
        intro hl
        have hx := hl x (List.mem_cons_self ..)
        have hxs := ihx (fun y hy => hl y (List.mem_cons_of_mem _ hy))
        cases xs with
        | nil => simp [needL, renderL, joinComma]; omega
        | cons y ys =>
          rw [renderL, renderL, joinComma, ← renderL, needL]
          simp only [List.length_append, List.length_cons]
          omega
    have := h xs ih
    simp only [need, render, List.length_cons, List.length_append, List.length_nil]
    omega
  | obj ms ih =>
    have h : ∀ l : List (String × Json String ν),
        (∀ p ∈ l, need p.2 ≤ (render quote nt p.2).length) →
        needM l ≤ (joinComma (renderM quote nt l)).length + 1 := by
      intro l
      induction l with
      | nil => intro _; simp [needM]
      | cons m ms ihm =>
        intro hl
        obtain ⟨k, v⟩ := m
        have hv := hl (k, v) (List.mem_cons_self ..)
        have hms := ihm (fun p hp => hl p (List.mem_cons_of_mem _ hp))
        cases ms with
        | nil => simp [needM, renderM, joinComma] at hv ⊢; omega
        | cons n ns =>
          obtain ⟨k', v'⟩ := n
          rw [renderM, renderM, joinComma, ← renderM, needM]
          simp only [List.length_append, List.length_cons] at hv ⊢
          omega
    have := h ms ih
    simp only [need, render, List.length_cons, List.length_append, List.length_nil]
    omega

/-- **What is written is read back.**  The compact text of a value parses to
the value, each number standing as its text. -/
theorem parse_render (hnt : ∀ n, IsNumber (nt n)) (v : Json String ν) :
    parse (render quote nt v) = some (mapNum nt v) := by
  have h := readsBack nt hnt v ((render quote nt v).length + 1) []
    (Nat.le_succ_of_le (need_le_length nt hnt v)) (by intro c hc; simp at hc)
  rw [List.append_nil] at h
  simp [parse, h, skipWs]

end RoundTrip

end Json
