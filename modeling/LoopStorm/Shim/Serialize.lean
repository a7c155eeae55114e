import LoopStorm.Lib.JsonSame
import LoopStorm.Shim.Canonical

/-!
# What the canonical text says of the arguments

`jcs_serialize` of `_jcs.py` on a value as Python holds it: strings with
surrogates, integers of any size, dicts in the order they were filled in.

* `jcsText` — the text, a Python string itself; `none` when it raises.
* `plainText` — a Python string spelt out in characters, each in its own way, so
  that what is known of compact texts applies.
* `jcsSerialize_iff_same` — **one text, one value**: values with one text are the
  same up to the order of their members, and such values have one text.
-/

namespace LoopStorm.Shim.Py

/-! ## The serializer -/

/-- A code point as it stands inside a string literal. -/
def jcsCodePoint : CodePoint → Str
  | .scalar c => (Json.escapeChar c).map .scalar
  | .surrogate n => [.surrogate n]

/-- Serialize a string per RFC 8785 / RFC 8259 escaping rules. -/
def jcsString (s : Str) : Str := lit "\"" ++ (s.flatMap jcsCodePoint ++ lit "\"")

/-- `str` of an integer; it raises when there are more digits than the
interpreter allows, where zero allows any number of them. -/
def strInt (limit : Nat) (n : ℤ) : Option Str :=
  if limit ≠ 0 ∧ limit < (Json.natText n.natAbs).length then none
  else some ((Json.intText n).map .scalar)

/-- The sort key of a key; `encode` raises for a surrogate. -/
def sortKey (key : Str) : Option (List UInt8) := (encode key).map utf16SortKey

section Text

variable {ν : Type} (str : ν → Option Str)

mutual
/-- Serialize a Python value to RFC 8785 canonical JSON; `none` when it raises. -/
def jcsText : Json Str ν → Option Str
  | .null => some (lit "null")
  | .bool true => some (lit "true")
  | .bool false => some (lit "false")
  | .num n => str n
  | .str s => some (jcsString s)
  | .arr xs => (jcsElems xs).map fun ts => lit "[" ++ ((lit ",").intercalate ts ++ lit "]")
  | .obj ms => (jcsMembers ms).map fun ps =>
    let pairs := (ps.mergeSort fun p q => decide (p.1 ≤ q.1)).map Prod.snd
    lit "\x7b" ++ ((lit ",").intercalate pairs ++ lit "\x7d")

/-- `jcsText` over the elements of a list. -/
def jcsElems : List (Json Str ν) → Option (List Str)
  | [] => some []
  | x :: xs => do
    let t ← jcsText x
    let ts ← jcsElems xs
    return t :: ts

/-- The items of a dict, each with the sort key of its key. -/
def jcsMembers : List (Str × Json Str ν) → Option (List (List UInt8 × Str))
  | [] => some []
  | (k, v) :: ms => do
    let key ← sortKey k
    let t ← jcsText v
    let ps ← jcsMembers ms
    return (key, jcsString k ++ (lit ":" ++ t)) :: ps
end

/-- One item of a dict. -/
def jcsMember (m : Str × Json Str ν) : Option (List UInt8 × Str) := do
  let key ← sortKey m.1
  let t ← jcsText str m.2
  return (key, jcsString m.1 ++ (lit ":" ++ t))

theorem jcsElems_eq_some {xs : List (Json Str ν)} {ts : List Str} :
    jcsElems str xs = some ts ↔ xs.map (jcsText str) = ts.map some := by
  induction xs generalizing ts with
  | nil => cases ts <;> simp [jcsElems]
  | cons x xs ih =>
    cases ts with
    | nil => simp [jcsElems, Option.bind_eq_some_iff]
    | cons t ts => simp [jcsElems, Option.bind_eq_some_iff, ih]

theorem jcsMembers_eq_some {ms : List (Str × Json Str ν)} {ps : List (List UInt8 × Str)} :
    jcsMembers str ms = some ps ↔ ms.map (jcsMember str) = ps.map some := by
  induction ms generalizing ps with
  | nil => cases ps <;> simp [jcsMembers]
  | cons m ms ih =>
    cases ps with
    | nil => simp [jcsMembers, Option.bind_eq_some_iff]
    | cons p ps =>
      rw [List.map_cons, List.map_cons, List.cons.injEq, ← ih]
      simp only [jcsMembers, jcsMember, Option.bind_eq_bind, Option.pure_def,
        Option.bind_eq_some_iff, Option.some.injEq, List.cons.injEq]
      constructor
      · rintro ⟨key, hkey, t, ht, ps', hps, hp, rfl⟩
        exact ⟨⟨key, hkey, t, ht, hp⟩, hps⟩
      · rintro ⟨⟨key, hkey, t, ht, hp⟩, hps⟩
        exact ⟨key, hkey, t, ht, ps, hps, hp, rfl⟩

end Text

/-- A value of the kinds that have a canonical text: a dict has each key once. -/
structure Value where
  json : Json Str ℤ
  unique : json.UniqueKeys

/-- Serialize a Python value to RFC 8785 canonical JSON; `none` when it raises. -/
def Value.jcsSerialize (limit : Nat) (v : Value) : Option Str := jcsText (strInt limit) v.json

/-! ## Spelling a Python string out in characters -/

/-- A code point, so that any row of them can be told from any other. -/
def CodePoint.plain : CodePoint → List Char
  | .scalar c => if c.toNat < 128 then [c] else [Char.ofNat 0x80, c]
  | .surrogate n => [Char.ofNat 0x81, Char.ofNat (0x100 + n)]

/-- A Python string spelt out. -/
def plainText (s : Str) : List Char := s.flatMap CodePoint.plain

/-- A Python string spelt out, as a string. -/
def plainStr (s : Str) : String := String.ofList (plainText s)

theorem plainText_append (s t : Str) : plainText (s ++ t) = plainText s ++ plainText t :=
  List.flatMap_append

/-- ASCII is spelt as it is. -/
theorem plainText_ascii {cs : List Char} (h : ∀ c ∈ cs, c.toNat < 128) :
    plainText (cs.map .scalar) = cs := by
  induction cs with
  | nil => rfl
  | cons c cs ih =>
    obtain ⟨hc, hcs⟩ := List.forall_mem_cons.1 h
    rw [List.map_cons, plainText, List.flatMap_cons, CodePoint.plain, if_pos hc]
    exact congrArg (c :: ·) (ih hcs)

theorem toNat_ofNat {n : Nat} (h : n < 0xD800) : (Char.ofNat n).toNat = n := by
  rw [Char.toNat_ofNat, if_pos]
  exact Or.inl h

/-- Where one code point ends, the next begins. -/
theorem plain_append_inj {p q : CodePoint} {cs ds : List Char}
    (h : p.plain ++ cs = q.plain ++ ds) : p = q ∧ cs = ds := by
  have hmark : (Char.ofNat 0x80).toNat = 0x80 := by decide
  have hmark' : (Char.ofNat 0x81).toNat = 0x81 := by decide
  cases p with
  | scalar c =>
    cases q with
    | scalar d =>
      simp only [CodePoint.plain] at h
      split at h
      case isTrue hc =>
        split at h
        case isTrue =>
          obtain ⟨rfl, rfl⟩ := List.cons.inj h
          exact ⟨rfl, rfl⟩
        case isFalse =>
          rw [(List.cons.inj h).1, hmark] at hc
          omega
      case isFalse =>
        split at h
        case isTrue hd =>
          rw [← (List.cons.inj h).1, hmark] at hd
          omega
        case isFalse =>
          obtain ⟨rfl, rfl⟩ := List.cons.inj (List.cons.inj h).2
          exact ⟨rfl, rfl⟩
    | surrogate n =>
      simp only [CodePoint.plain] at h
      split at h
      case isTrue hc =>
        rw [(List.cons.inj h).1, hmark'] at hc
        omega
      case isFalse =>
        have hhead := congrArg Char.toNat (List.cons.inj h).1
        rw [hmark, hmark'] at hhead
        omega
  | surrogate n =>
    cases q with
    | scalar d =>
      simp only [CodePoint.plain] at h
      split at h
      case isTrue hd =>
        rw [← (List.cons.inj h).1, hmark'] at hd
        omega
      case isFalse =>
        have hhead := congrArg Char.toNat (List.cons.inj h).1
        rw [hmark, hmark'] at hhead
        omega
    | surrogate m =>
      obtain ⟨hnm, rfl⟩ := List.cons.inj (List.cons.inj h).2
      have hnat := congrArg Char.toNat hnm
      rw [toNat_ofNat (by omega), toNat_ofNat (by omega)] at hnat
      exact ⟨congrArg _ (Fin.ext (by omega)), rfl⟩

theorem plainText_injective : Function.Injective plainText := by
  have hne (p : CodePoint) (s : Str) : plainText (p :: s) ≠ [] := by
    intro h
    rw [plainText, List.flatMap_cons] at h
    have hnil := (List.append_eq_nil_iff.1 h).1
    cases p with
    | scalar c =>
      rw [CodePoint.plain] at hnil
      split at hnil <;> cases hnil
    | surrogate n => cases hnil
  intro s
  induction s with
  | nil =>
    intro t h
    cases t with
    | nil => rfl
    | cons q t => exact absurd h.symm (hne q t)
  | cons p s ih =>
    intro t h
    cases t with
    | nil => exact absurd h (hne p s)
    | cons q t =>
      rw [plainText, plainText, List.flatMap_cons, List.flatMap_cons] at h
      obtain ⟨rfl, hrest⟩ := plain_append_inj h
      rw [ih hrest]

theorem plainStr_injective : Function.Injective plainStr := by
  intro s t h
  have hlist := congrArg String.toList h
  rw [plainStr, plainStr, String.toList_ofList, String.toList_ofList] at hlist
  exact plainText_injective hlist

/-- The escapes of an ASCII character are ASCII. -/
theorem ascii_escapeChar {c d : Char} (hc : c.toNat < 128) (h : d ∈ Json.escapeChar c) :
    d.toNat < 128 := by
  have hhex : ∀ n, n < 16 → (Json.hexDigit n).toNat < 128 := by
    intro n hn
    rw [Json.hexDigit_toNat hn]
    split <;> omega
  have hescape (e : Char) (he : e.toNat < 128) (h : d ∈ ['\\', e]) : d.toNat < 128 := by
    simp only [List.mem_cons, List.not_mem_nil, or_false] at h
    rcases h with rfl | rfl
    · decide
    · exact he
  unfold Json.escapeChar at h
  split_ifs at h
  · exact hescape '"' (by decide) h
  · exact hescape '\\' (by decide) h
  · exact hescape 'n' (by decide) h
  · exact hescape 'r' (by decide) h
  · exact hescape 't' (by decide) h
  · exact hescape 'b' (by decide) h
  · exact hescape 'f' (by decide) h
  · simp only [List.mem_cons, List.not_mem_nil, or_false] at h
    rcases h with rfl | rfl | rfl | rfl | rfl | rfl
    · decide
    · decide
    · decide
    · decide
    · exact hhex _ (by omega)
    · exact hhex _ (by omega)
  · rw [List.mem_singleton] at h
    rwa [h]

/-- Nothing outside ASCII is escaped. -/
theorem escapeChar_of_not_ascii {c : Char} (hc : ¬ c.toNat < 128) : Json.escapeChar c = [c] := by
  have hne (d : Char) (hd : d.toNat < 128) : c ≠ d := by
    rintro rfl
    exact hc hd
  rw [Json.escapeChar, if_neg (hne _ (by decide)), if_neg (hne _ (by decide)),
    if_neg (hne _ (by decide)), if_neg (hne _ (by decide)), if_neg (hne _ (by decide)),
    if_neg (by omega), if_neg (by omega), if_neg (by omega)]

theorem plainText_jcsCodePoint (p : CodePoint) :
    plainText (jcsCodePoint p) = p.plain.flatMap Json.escapeChar := by
  cases p with
  | scalar c =>
    rw [jcsCodePoint, CodePoint.plain]
    split
    case isTrue hc =>
      rw [plainText_ascii fun d hd => ascii_escapeChar hc hd]
      exact (List.append_nil _).symm
    case isFalse hc =>
      rw [List.flatMap_cons, List.flatMap_singleton, escapeChar_of_not_ascii hc,
        escapeChar_of_not_ascii (by decide), List.map_singleton]
      show CodePoint.plain _ ++ [] = _
      rw [CodePoint.plain, if_neg hc]
      rfl
  | surrogate n =>
    have hn : ¬ (Char.ofNat (0x100 + n)).toNat < 128 := by
      rw [toNat_ofNat (by omega)]
      omega
    rw [CodePoint.plain, List.flatMap_cons, List.flatMap_singleton, escapeChar_of_not_ascii hn,
      escapeChar_of_not_ascii (by decide)]
    rfl

/-- A literal spelt out is the literal of the string spelt out. -/
theorem plainText_jcsString (s : Str) : plainText (jcsString s) = Json.quote (plainStr s) := by
  have hchars : plainText (s.flatMap jcsCodePoint) = (plainText s).flatMap Json.escapeChar := by
    induction s with
    | nil => rfl
    | cons p s ih =>
      rw [List.flatMap_cons, plainText_append, ih, plainText_jcsCodePoint, plainText, plainText,
        List.flatMap_cons, List.flatMap_append]
  rw [jcsString, plainText_append, plainText_append, hchars, Json.quote, plainStr,
    String.toList_ofList]
  rfl

theorem plainText_intercalate (ts : List Str) :
    plainText ((lit ",").intercalate ts) = Json.joinComma (ts.map plainText) := by
  induction ts with
  | nil => rfl
  | cons t ts ih =>
    cases ts with
    | nil =>
      rw [List.intercalate_singleton]
      rfl
    | cons u ts =>
      rw [List.intercalate_cons_cons, plainText_append, plainText_append, ih, List.append_assoc]
      rfl

/-! ## The text is compact -/

/-- The order of the keys in a dict that has a text. -/
def orderLe (k l : Str) : Bool := decide ((sortKey k).getD [] ≤ (sortKey l).getD [])

section Compact

variable {ν : Type} {str : ν → Option Str} {nt : ν → List Char}

/-- The compact text of a value, its strings spelt out and its members in
order. -/
def compact (nt : ν → List Char) (v : Json Str ν) : List Char :=
  Json.render (fun s => Json.quote (plainStr s)) nt (Json.sortKeys orderLe v)

theorem plainText_jcsElems {xs : List (Json Str ν)} {ts : List Str}
    (ih : ∀ x ∈ xs, ∀ t, jcsText str x = some t → plainText t = compact nt x)
    (h : jcsElems str xs = some ts) : ts.map plainText = xs.map (compact nt) := by
  rw [jcsElems_eq_some] at h
  induction xs generalizing ts with
  | nil =>
    obtain rfl := List.map_eq_nil_iff.1 h.symm
    rfl
  | cons x xs ihxs =>
    cases ts with
    | nil => cases h
    | cons t ts =>
      obtain ⟨hx, hxs⟩ := List.cons.inj h
      rw [List.map_cons, List.map_cons, ih x (List.mem_cons_self ..) t hx,
        ihxs (fun y hy => ih y (List.mem_cons_of_mem _ hy)) hxs]

theorem plainText_jcsMembers {ms : List (Str × Json Str ν)} {ps : List (List UInt8 × Str)}
    (ih : ∀ m ∈ ms, ∀ t, jcsText str m.2 = some t → plainText t = compact nt m.2)
    (h : jcsMembers str ms = some ps) :
    ps.map (fun p => (p.1, plainText p.2)) =
      ms.map fun m => ((sortKey m.1).getD [],
        Json.quote (plainStr m.1) ++ ':' :: compact nt m.2) := by
  rw [jcsMembers_eq_some] at h
  induction ms generalizing ps with
  | nil =>
    obtain rfl := List.map_eq_nil_iff.1 h.symm
    rfl
  | cons m ms ihms =>
    cases ps with
    | nil => cases h
    | cons p ps =>
      obtain ⟨hm, hms⟩ := List.cons.inj h
      rw [jcsMember, Option.bind_eq_bind, Option.bind_eq_some_iff] at hm
      obtain ⟨key, hkey, hm⟩ := hm
      obtain ⟨t, ht, hm⟩ := Option.bind_eq_some_iff.1 hm
      obtain rfl := Option.some.inj hm
      rw [List.map_cons, List.map_cons, hkey,
        ihms (fun n hn => ih n (List.mem_cons_of_mem _ hn)) hms, plainText_append,
        plainText_append, plainText_jcsString, ih m (List.mem_cons_self ..) t ht]
      rfl

/-- **The text spelt out is a compact text.** -/
theorem plainText_jcsText (hstr : ∀ n t, str n = some t → plainText t = nt n) {v : Json Str ν}
    {t : Str} (h : jcsText str v = some t) : plainText t = compact nt v := by
  induction v using Json.induction generalizing t with
  | null =>
    obtain rfl := Option.some.inj h
    rfl
  | bool b =>
    cases b
    · obtain rfl := Option.some.inj h
      rfl
    · obtain rfl := Option.some.inj h
      rfl
  | num n => exact hstr n t h
  | str s =>
    obtain rfl := Option.some.inj h
    exact plainText_jcsString s
  | arr xs ih =>
    obtain ⟨ts, hts, rfl⟩ := Option.map_eq_some_iff.1 h
    rw [plainText_append, plainText_append, plainText_intercalate,
      plainText_jcsElems (fun x hx t ht => ih x hx ht) hts, compact, Json.sortKeys, Json.render,
      Json.renderL_eq_map, Json.sortKeysL_eq_map, List.map_map]
    rfl
  | obj ms ih =>
    obtain ⟨ps, hps, rfl⟩ := Option.map_eq_some_iff.1 h
    have hmembers := plainText_jcsMembers (fun m hm t ht => ih m hm ht) hps
    rw [plainText_append, plainText_append, plainText_intercalate, List.map_map]
    have hsorted : (ps.mergeSort fun p q => decide (p.1 ≤ q.1)).map
          (fun p => (p.1, plainText p.2)) =
        (Json.sortMembers orderLe ms).map fun m => ((sortKey m.1).getD [],
          Json.quote (plainStr m.1) ++ ':' :: compact nt m.2) := by
      have hmap : (ps.mergeSort fun p q => decide (p.1 ≤ q.1)).map
            (fun p => (p.1, plainText p.2)) =
          (ps.map fun p => (p.1, plainText p.2)).mergeSort fun p q => decide (p.1 ≤ q.1) :=
        List.map_mergeSort fun _ _ _ _ => rfl
      rw [hmap, hmembers, Json.sortMembers]
      symm
      apply List.map_mergeSort
      intro m _ n _
      rfl
    have htexts := congrArg (List.map Prod.snd) hsorted
    rw [List.map_map, List.map_map] at htexts
    rw [compact, Json.sortKeys, Json.render, Json.renderM_eq_map, Json.sortMembers_sortKeysM,
      List.map_map]
    exact congrArg (fun ts => '{' :: (Json.joinComma ts ++ ['}'])) htexts

end Compact

/-! ## One text, one value -/

section Same

theorem plainText_strInt (limit : Nat) (n : ℤ) (t : Str) (h : strInt limit n = some t) :
    plainText t = Json.intText n := by
  rw [strInt] at h
  split at h
  case isTrue => cases h
  case isFalse =>
    obtain rfl := Option.some.inj h
    refine plainText_ascii fun c hc => ?_
    have hdigit {d : Char} {m : Nat} (hd : d ∈ Json.natText m) : d.toNat < 128 := by
      have hle := (Char.isDigit_iff_toNat.1 (Json.isDigit_natText hd)).2
      exact lt_of_le_of_lt hle (by decide)
    rw [Json.intText] at hc
    split at hc
    · rcases List.mem_cons.1 hc with rfl | hc
      · decide
      · exact hdigit hc
    · exact hdigit hc

/-- Values with one text are the same. -/
theorem same_of_jcsText {limit : Nat} {v w : Json Str ℤ} {t : Str} (hw : w.UniqueKeys)
    (htv : jcsText (strInt limit) v = some t) (htw : jcsText (strInt limit) w = some t) :
    v.same w = true := by
  have hv := plainText_jcsText (plainText_strInt limit) htv
  rw [plainText_jcsText (plainText_strInt limit) htw, compact, compact,
    ← Json.render_mapStr plainStr Json.quote, ← Json.render_mapStr plainStr Json.quote] at hv
  have hsorted := Json.mapStr_injective plainStr_injective
    (Json.render_injective Json.isNumber_intText Json.intText_injective hv)
  exact Json.same_of_sortKeys hw hsorted.symm

variable {ν : Type} {str : ν → Option Str}

theorem sortKey_injective {k l : Str} {key : List UInt8} (hk : sortKey k = some key)
    (hl : sortKey l = some key) : k = l := by
  obtain ⟨s, hs, hkey⟩ := Option.map_eq_some_iff.1 hk
  obtain ⟨s', hs', hkey'⟩ := Option.map_eq_some_iff.1 hl
  rw [encode_eq_some hs, encode_eq_some hs', utf16SortKey_injective (hkey.trans hkey'.symm)]

/-- Items of one dict in two orders come out in one. -/
theorem sorted_eq_of_perm {ps qs : List (List UInt8 × Str)} (hnodup : (ps.map Prod.fst).Nodup)
    (h : ps.Perm qs) : ps.mergeSort (fun p q => decide (p.1 ≤ q.1)) =
      qs.mergeSort fun p q => decide (p.1 ≤ q.1) := by
  have hsorted (l : List (List UInt8 × Str)) :
      (l.mergeSort fun p q => decide (p.1 ≤ q.1)).Pairwise fun p q => decide (p.1 ≤ q.1) = true := by
    refine List.pairwise_mergeSort (fun a b c hab hbc => ?_) (fun a b => ?_) l
    · exact decide_eq_true (List.le_trans (of_decide_eq_true hab) (of_decide_eq_true hbc))
    · simpa using List.le_total a.1 b.1
  refine List.Perm.eq_of_pairwise (fun p q hp hq hpq hqp => ?_) (hsorted ps) (hsorted qs)
    ((List.mergeSort_perm ..).trans (h.trans (List.mergeSort_perm ..).symm))
  have hps : p ∈ ps := (List.mergeSort_perm ..).mem_iff.1 hp
  have hqs : q ∈ ps := h.mem_iff.2 ((List.mergeSort_perm ..).mem_iff.1 hq)
  exact List.inj_on_of_nodup_map hnodup hps hqs
    (List.le_antisymm (of_decide_eq_true hpq) (of_decide_eq_true hqp))

/-- The sort keys of a dict are different from each other. -/
theorem nodup_sortKeys {ms : List (Str × Json Str ν)} {ps : List (List UInt8 × Str)}
    (hkeys : (ms.map Prod.fst).Nodup) (h : jcsMembers str ms = some ps) :
    (ps.map Prod.fst).Nodup := by
  rw [jcsMembers_eq_some] at h
  have hmember (m : Str × Json Str ν) (p : List UInt8 × Str) (hp : jcsMember str m = some p) :
      sortKey m.1 = some p.1 := by
    rw [jcsMember, Option.bind_eq_bind, Option.bind_eq_some_iff] at hp
    obtain ⟨key, hkey, hp⟩ := hp
    obtain ⟨t, ht, hp⟩ := Option.bind_eq_some_iff.1 hp
    obtain rfl := Option.some.inj hp
    exact hkey
  induction ms generalizing ps with
  | nil =>
    obtain rfl := List.map_eq_nil_iff.1 h.symm
    exact List.nodup_nil
  | cons m ms ih =>
    cases ps with
    | nil => cases h
    | cons p ps =>
      obtain ⟨hm, hms⟩ := List.cons.inj h
      rw [List.map_cons, List.nodup_cons] at hkeys ⊢
      refine ⟨fun hp => ?_, ih hkeys.2 hms⟩
      obtain ⟨q, hq, heq⟩ := List.mem_map.1 hp
      obtain ⟨n, hn, hnq⟩ := List.mem_map.1 (hms ▸ List.mem_map_of_mem hq)
      have hmn := sortKey_injective (hmember m p hm) (heq ▸ hmember n q hnq)
      exact hkeys.1 (List.mem_map.2 ⟨n, hn, hmn.symm⟩)

/-- The items of a dict in another order. -/
theorem jcsMembers_perm {ms ns : List (Str × Json Str ν)} {ps : List (List UInt8 × Str)}
    (h : (ms.map (jcsMember str)).Perm (ns.map (jcsMember str)))
    (hps : jcsMembers str ms = some ps) : ∃ qs, jcsMembers str ns = some qs ∧ ps.Perm qs := by
  rw [jcsMembers_eq_some] at hps
  rw [hps] at h
  have hitems : List.Forall₂ (fun o p => o = some p) (ps.map some) ps :=
    List.forall₂_map_left_iff.2 (List.forall₂_same.2 fun _ _ => rfl)
  obtain ⟨qs, hqs, hperm⟩ := List.perm_comp_forall₂ h.symm hitems
  refine ⟨qs, (jcsMembers_eq_some str).2 ?_, hperm.symm⟩
  rwa [← List.forall₂_eq_eq_eq, List.forall₂_map_right_iff]

/-- The same values have one text, or none. -/
theorem jcsText_eq_of_same [DecidableEq ν] {v w : Json Str ν} (hv : v.UniqueKeys) (hw : w.UniqueKeys)
    (h : v.same w = true) : jcsText str v = jcsText str w := by
  induction v using Json.induction generalizing w with
  | null => cases w <;> simp_all [Json.same]
  | bool b => cases w <;> simp_all [Json.same]
  | num n => cases w <;> simp_all [Json.same]
  | str s => cases w <;> simp_all [Json.same]
  | arr xs ih =>
    cases hv with
    | arr _ hxs =>
      cases hw with
      | arr ys hys =>
        rw [Json.same, Json.sameL_iff, List.forall₂_iff_get] at h
        have hmap : xs.map (jcsText str) = ys.map (jcsText str) := by
          refine List.ext_get (by simpa using h.1) fun i hi hj => ?_
          rw [List.length_map] at hi hj
          have hi' := List.get_mem xs ⟨i, hi⟩
          have hj' := List.get_mem ys ⟨i, hj⟩
          simpa using ih _ hi' (hxs _ hi') (hys _ hj') (h.2 i hi hj)
        have helems : jcsElems str xs = jcsElems str ys := by
          refine Option.ext fun ts => ?_
          rw [jcsElems_eq_some, jcsElems_eq_some, hmap]
        rw [jcsText, jcsText, helems]
      | _ => simp [Json.same] at h
  | obj ms ih =>
    cases hv with
    | obj _ hms hmembers =>
      cases hw with
      | obj ns hns hmembers' =>
        have hperm := Json.map_perm_of_same hms hns h (f := jcsMember str) fun m hm n hn hkey hsame => by
          rw [jcsMember, jcsMember, hkey, ih m hm (hmembers m hm) (hmembers' n hn) hsame]
        rw [jcsText, jcsText]
        cases hps : jcsMembers str ms with
        | some ps =>
          obtain ⟨qs, hqs, hsame⟩ := jcsMembers_perm hperm hps
          rw [hqs, Option.map_some, Option.map_some,
            sorted_eq_of_perm (nodup_sortKeys hms hps) hsame]
        | none =>
          cases hqs : jcsMembers str ns with
          | none => rfl
          | some qs =>
            obtain ⟨ps, hsome, -⟩ := jcsMembers_perm hperm.symm hqs
            rw [hps] at hsome
            cases hsome
      | _ => simp [Json.same] at h

end Same

/-- What `args_hash` digests: the bytes of the text, unless it has none. -/
def Value.payload (limit : Nat) (v : Value) : Option (List UInt8) :=
  (v.jcsSerialize limit).bind fun t => (encode t).map Text.utf8

/-- **One text, one value.**  Values with one text are the same up to the order
of their members, and so are those with one payload; the same values have one
text, or none. -/
theorem jcsSerialize_iff_same (limit : Nat) (v w : Value) :
    (∀ t, v.jcsSerialize limit = some t → w.jcsSerialize limit = some t →
        v.json.same w.json = true) ∧
      (∀ bs, v.payload limit = some bs → w.payload limit = some bs →
        v.json.same w.json = true) ∧
      (v.json.same w.json = true → v.jcsSerialize limit = w.jcsSerialize limit) := by
  refine ⟨fun t hv hw => same_of_jcsText w.unique hv hw, fun bs hv hw => ?_,
    jcsText_eq_of_same v.unique w.unique⟩
  obtain ⟨t, ht, hbs⟩ := Option.bind_eq_some_iff.1 hv
  obtain ⟨u, hu, hbs'⟩ := Option.bind_eq_some_iff.1 hw
  obtain ⟨s, hs, rfl⟩ := Option.map_eq_some_iff.1 hbs
  obtain ⟨s', hs', heq⟩ := Option.map_eq_some_iff.1 hbs'
  obtain rfl := Text.utf8_injective heq
  have htu : t = u := (encode_eq_some hs).trans (encode_eq_some hs').symm
  exact same_of_jcsText w.unique ht (htu ▸ hu)

namespace Sample

theorem zero_lt_surrogates : 0 < 2048 := by decide

/-- The first code point that has no encoding. -/
def loneSurrogate : CodePoint := .surrogate ⟨0, zero_lt_surrogates⟩

theorem unique_list : (.arr [.null, .num (-1)] : Json Str ℤ).UniqueKeys := by
  refine .arr _ fun x hx => ?_
  simp only [List.mem_cons, List.not_mem_nil, or_false] at hx
  rcases hx with rfl | rfl
  · exact .null
  · exact .num _

theorem unique_filled : (.obj [(lit "b", .arr [.null, .num (-1)]),
    (lit "a", .str [.scalar '"', loneSurrogate])] : Json Str ℤ).UniqueKeys := by
  refine .obj _ (by decide) fun m hm => ?_
  simp only [List.mem_cons, List.not_mem_nil, or_false] at hm
  rcases hm with rfl | rfl
  · exact unique_list
  · exact .str _

theorem unique_refilled : (.obj [(lit "a", .str [.scalar '"', loneSurrogate]),
    (lit "b", .arr [.null, .num (-1)])] : Json Str ℤ).UniqueKeys := by
  refine .obj _ (by decide) fun m hm => ?_
  simp only [List.mem_cons, List.not_mem_nil, or_false] at hm
  rcases hm with rfl | rfl
  · exact .str _
  · exact unique_list

/-- Two keys, a list under the first. -/
def filled : Value := ⟨_, unique_filled⟩

/-- The same dict, filled in the other order. -/
def refilled : Value := ⟨_, unique_refilled⟩

theorem jcsSerialize_filled :
    (filled.jcsSerialize 4300).isSome = true ∧
      filled.jcsSerialize 4300 = refilled.jcsSerialize 4300 := by
  refine ⟨?_, (jcsSerialize_iff_same 4300 filled refilled).2.2 (by decide +kernel)⟩
  have hmembers : (jcsMembers (strInt 4300) [(lit "b", .arr [.null, .num (-1)]),
      (lit "a", .str [.scalar '"', loneSurrogate])]).isSome = true := by
    decide +kernel
  rw [Value.jcsSerialize, filled, jcsText, Option.isSome_map]
  exact hmembers

end Sample

end LoopStorm.Shim.Py
