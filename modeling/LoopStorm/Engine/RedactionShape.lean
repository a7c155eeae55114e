import LoopStorm.Engine.Redaction
import LoopStorm.Lib.JsonPath

/-!
# What redaction keeps and what it hides

* `Plain` — a path that does not lead under a sensitive key.
* `Json.Node.redacted` — a node of a value, its text redacted.
* `descend_redactValue` — a plain path leads to the redaction of what it led to.
* `redactValue_congr` — values that differ under sensitive keys only have one
  redaction.
* `redact_shape` — **an enabled redactor keeps the shape of a value outside the
  sensitive keys, and shows nothing of what is under them.**
-/

namespace LoopStorm.Engine

open Json

section Shape

variable {ν : Type} [TextTools]

/-- The step does not lead under a sensitive key. -/
def PlainStep (r : Redactor) : Step String → Prop
  | .member _ key => r.isSensitiveKey key = false
  | .element _ => True

/-- No step of the path leads under a sensitive key. -/
def PlainPath (r : Redactor) (path : List (Step String)) : Prop := ∀ step ∈ path, PlainStep r step

/-- A node with its text redacted; every other node as it is. -/
def redactNode (r : Redactor) : Node String ν → Node String ν
  | .str s => .str (r.redactString s)
  | node => node

/-- The two values differ under sensitive keys only. -/
def DifferUnderKeys (r : Redactor) (v w : Json String ν) : Prop := AgreeOn (PlainStep r) v w

/-! ## One value -/

/-- The member of an object, redacted. -/
def redactMember (r : Redactor) (m : String × Json String ν) : String × Json String ν :=
  (m.1, if r.isSensitiveKey m.1 then .str redacted else r.redactValue m.2)

theorem redactElements_eq_map (r : Redactor) (xs : List (Json String ν)) :
    r.redactElements xs = xs.map r.redactValue := by
  induction xs with
  | nil => rw [Redactor.redactElements, List.map_nil]
  | cons x xs ih => rw [Redactor.redactElements, ih, List.map_cons]

theorem redactMembers_eq_map (r : Redactor) (ms : List (String × Json String ν)) :
    r.redactMembers ms = ms.map (redactMember r) := by
  induction ms with
  | nil => rw [Redactor.redactMembers, List.map_nil]
  | cons m ms ih =>
    obtain ⟨key, v⟩ := m
    rw [Redactor.redactMembers, ih, List.map_cons, redactMember]

@[simp] theorem redactValue_arr (r : Redactor) (xs : List (Json String ν)) :
    r.redactValue (.arr xs) = .arr (xs.map r.redactValue) := by
  rw [Redactor.redactValue, redactElements_eq_map]

@[simp] theorem redactValue_obj (r : Redactor) (ms : List (String × Json String ν)) :
    r.redactValue (.obj ms) = .obj (ms.map (redactMember r)) := by
  rw [Redactor.redactValue, redactMembers_eq_map]

/-- Keys, lengths, numbers, booleans and null are kept; a text is redacted. -/
theorem node_redactValue (r : Redactor) (v : Json String ν) :
    (r.redactValue v).node = redactNode r v.node := by
  cases v with
  | arr xs => simp [node, redactNode]
  | obj ms =>
    rw [redactValue_obj, node, node, redactNode, List.map_map]
    · rfl
    · intro s h
      cases h
  | str s => rw [Redactor.redactValue, node, node, redactNode]
  | null | bool | num => rw [Redactor.redactValue]; rfl

/-- A step into a member of an object. -/
theorem child_redactValue_obj (r : Redactor) (ms : List (String × Json String ν)) (i : Nat)
    (key : String) :
    (r.redactValue (.obj ms)).child (.member i key) =
      (child (.obj ms) (.member i key)).map fun v =>
        if r.isSensitiveKey key then .str redacted else r.redactValue v := by
  ext w
  rw [redactValue_obj, child_member, List.getElem?_map, Option.map_eq_some_iff,
    Option.map_eq_some_iff]
  simp only [child_member]
  constructor
  · rintro ⟨⟨k, v⟩, hm, heq⟩
    obtain ⟨hk, hw⟩ := Prod.mk.inj heq
    obtain rfl : k = key := hk
    exact ⟨v, hm, hw⟩
  · rintro ⟨v, hm, rfl⟩
    exact ⟨(key, v), hm, rfl⟩

/-- A plain step leads to the redaction of what it led to. -/
theorem child_redactValue {r : Redactor} {step : Step String} (h : PlainStep r step)
    (v : Json String ν) : (r.redactValue v).child step = (v.child step).map r.redactValue := by
  cases v with
  | obj ms =>
    cases step with
    | member i key =>
      have hplain : r.isSensitiveKey key = false := h
      rw [child_redactValue_obj, hplain]
      rfl
    | element i => rw [redactValue_obj]; rfl
  | arr xs =>
    rw [redactValue_arr]
    cases step with
    | member i key => rfl
    | element i => exact List.getElem?_map ..
  | null | bool | num | str => rw [Redactor.redactValue]; cases step <;> rfl

/-- A step under a sensitive key leads to the marker. -/
theorem child_sensitive {r : Redactor} {key : String} (h : r.isSensitiveKey key = true) (i : Nat)
    (v : Json String ν) :
    (r.redactValue v).child (.member i key) =
      (v.child (.member i key)).map fun _ => .str "[REDACTED]" := by
  cases v with
  | obj ms =>
    rw [child_redactValue_obj, h]
    rfl
  | null | bool | num | str | arr => rw [Redactor.redactValue]; rfl

/-- **A plain path leads to the redaction of what it led to.** -/
theorem descend_redactValue {r : Redactor} {path : List (Step String)} (h : PlainPath r path)
    (v : Json String ν) : (r.redactValue v).descend path = (v.descend path).map r.redactValue := by
  induction path generalizing v with
  | nil => rfl
  | cons step path ih =>
    obtain ⟨hstep, hpath⟩ := List.forall_mem_cons.1 h
    rw [descend, descend, child_redactValue hstep]
    cases v.child step with
    | none => rfl
    | some w => exact ih hpath w

/-! ## Two values -/

/-- Values that differ under sensitive keys only have one redaction. -/
theorem redactValue_congr {r : Redactor} {v w : Json String ν} (h : DifferUnderKeys r v w) :
    r.redactValue v = r.redactValue w := by
  have hnode := h.node_eq
  induction v using Json.induction generalizing w with
  | null | bool | num | str =>
    cases w <;> cases hnode
    all_goals rfl
  | arr xs ih =>
    obtain ⟨ys, rfl, hlen⟩ := eq_arr_of_node hnode.symm
    rw [redactValue_arr, redactValue_arr]
    congr 1
    refine List.ext_getElem (by simp [hlen]) ?_
    intro i hi hi'
    rw [List.length_map] at hi hi'
    rw [List.getElem_map, List.getElem_map]
    have hplain : PlainStep r (.element i) := trivial
    have hchild : DifferUnderKeys r xs[i] ys[i] :=
      h.child hplain (List.getElem?_eq_getElem hi) (List.getElem?_eq_getElem hi')
    exact ih _ (List.getElem_mem hi) hchild hchild.node_eq
  | obj ms ih =>
    obtain ⟨ns, rfl, hkeys⟩ := eq_obj_of_node hnode.symm
    rw [redactValue_obj, redactValue_obj]
    congr 1
    have hlen : ns.length = ms.length := by
      have := congrArg List.length hkeys
      simpa using this
    refine List.ext_getElem (by simp [hlen]) ?_
    intro i hi hi'
    rw [List.length_map] at hi hi'
    have hkey : ms[i].1 = ns[i].1 := by
      have := congrArg (fun keys => keys[i]?) hkeys
      simpa [hi, hi', eq_comm] using this
    rw [List.getElem_map, List.getElem_map, redactMember, redactMember, hkey]
    cases hsensitive : r.isSensitiveKey ns[i].1 with
    | true => rfl
    | false =>
      have hleft : child (.obj ms) (.member i ns[i].1) = some ms[i].2 := by
        rw [child_member, List.getElem?_eq_getElem hi, ← hkey]
      have hright : child (.obj ns) (.member i ns[i].1) = some ns[i].2 := by
        rw [child_member, List.getElem?_eq_getElem hi']
      have hplain : PlainStep r (.member i ns[i].1) := hsensitive
      have hchild : DifferUnderKeys r ms[i].2 ns[i].2 := h.child hplain hleft hright
      rw [if_neg Bool.false_ne_true, if_neg Bool.false_ne_true,
        ih ms[i] (List.getElem_mem hi) hchild hchild.node_eq]

/-! ## Redaction -/

/-- **What an enabled redactor keeps and hides.**  Outside the sensitive keys the
redaction has the nodes of the value, only texts are redacted; under a sensitive
key, wherever it is, stands the marker; and values that differ under sensitive
keys only have one redaction. -/
theorem redact_shape {r : Redactor} (h : r.enabled = true) (v : Json String ν) :
    (∀ path, PlainPath r path → ((r.redact v).descend path).map node =
      ((v.descend path).map node).map (redactNode r)) ∧
    (∀ path i key, PlainPath r path → r.isSensitiveKey key = true →
      (r.redact v).descend (path ++ [.member i key]) =
        ((v.descend (path ++ [.member i key])).map fun _ => .str "[REDACTED]") ∧
      ∀ step rest, (r.redact v).descend (path ++ .member i key :: step :: rest) = none) ∧
    ∀ w, DifferUnderKeys r v w → r.redact v = r.redact w := by
  have hredact (u : Json String ν) : r.redact u = r.redactValue u := by
    rw [Redactor.redact, h]
    rfl
  refine ⟨?_, ?_, ?_⟩
  · intro path hpath
    rw [hredact, descend_redactValue hpath, Option.map_map, Option.map_map]
    congr 1
    funext u
    exact node_redactValue r u
  · intro path i key hpath hkey
    rw [hredact]
    constructor
    · rw [descend_append, descend_append, descend_redactValue hpath]
      cases v.descend path with
      | none => rfl
      | some u =>
        show (r.redactValue u).descend [.member i key] = (u.descend [.member i key]).map _
        rw [descend_singleton, descend_singleton, child_sensitive hkey]
    · intro step rest
      rw [descend_append, descend_redactValue hpath]
      cases v.descend path with
      | none => rfl
      | some u =>
        -- Nothing is below the marker.
        show (r.redactValue u).descend (.member i key :: step :: rest) = none
        rw [descend, child_sensitive hkey]
        cases u.child (.member i key) <;> cases step <;> rfl
  · intro w hdiffer
    rw [hredact, hredact]
    exact redactValue_congr hdiffer

end Shape

namespace Sample

/-- Texts without upper case, and no regular expressions. -/
@[reducible] def lowerCaseOnly : TextTools := ⟨fun _ => none, fun s => s⟩

/-- A redactor without patterns of its own. -/
def keysOnly : Redactor := ⟨true, [], []⟩

/-- The arguments of a login. -/
def loginArgs : Json String Nat :=
  .obj [("user", .str "ada"), ("login", .arr [.obj [("password", .num 7)]])]

/-- The password is hidden where it stands. -/
theorem redact_shape_login :
    (@Redactor.redact lowerCaseOnly Nat keysOnly loginArgs).descend
      [.member 1 "login", .element 0, .member 0 "password"] = some (.str "[REDACTED]") := by
  have hplain : @PlainPath lowerCaseOnly keysOnly [.member 1 "login", .element 0] := by
    intro step hstep
    rcases List.mem_cons.1 hstep with rfl | hstep
    · show @Redactor.isSensitiveKey lowerCaseOnly keysOnly "login" = false
      decide +kernel
    · obtain rfl := List.mem_singleton.1 hstep
      trivial
  have hkey : @Redactor.isSensitiveKey lowerCaseOnly keysOnly "password" = true := by
    decide +kernel
  exact ((@redact_shape Nat lowerCaseOnly keysOnly rfl loginArgs).2.1 _ 0 "password" hplain
    hkey).1

end Sample

end LoopStorm.Engine
