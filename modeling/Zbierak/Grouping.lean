import Zbierak.Fingerprint
import Mathlib.Data.String.Basic
import Mathlib.Data.List.Nodup
import Mathlib.Data.List.Sort

/-!
# What the grouping fingerprint depends on

A derived fingerprint depends on the grouping fields alone, at every level of
the tree, and no fingerprint depends on the order of object keys.
-/
namespace Zbierak.Grouping

open Fingerprint
open Value (lookup)

variable {α β : Type}

theorem lookup_mem {fields : List (String × α)} {key : String} {a : α}
    (h : lookup key fields = some a) : (key, a) ∈ fields := by
  induction fields with
  | nil => cases h
  | cons field fields ih =>
    obtain ⟨k, b⟩ := field
    rw [lookup] at h
    split at h
    · next heq =>
      cases h
      rw [heq]
      exact List.mem_cons_self
    · exact List.mem_cons_of_mem _ (ih h)

theorem lookup_isSome {fields : List (String × α)} {key : String} :
    (lookup key fields).isSome = true ↔ key ∈ fields.map Prod.fst := by
  induction fields with
  | nil => simp [lookup]
  | cons field fields ih =>
    obtain ⟨k, a⟩ := field
    rw [lookup, List.map_cons, List.mem_cons]
    split
    · next heq => simp [heq]
    · next hne => rw [ih, or_iff_right fun heq => hne heq.symm]

theorem mem_iff_lookup {fields : List (String × α)} (hdistinct : (fields.map Prod.fst).Nodup)
    {key : String} {a : α} : (key, a) ∈ fields ↔ lookup key fields = some a := by
  refine ⟨fun hmem => ?_, lookup_mem⟩
  have hkey : key ∈ fields.map Prod.fst := List.mem_map_of_mem hmem
  obtain ⟨b, hb⟩ := Option.isSome_iff_exists.mp (lookup_isSome.mpr hkey)
  have heq := List.inj_on_of_nodup_map hdistinct hmem (lookup_mem hb) rfl
  rw [hb, (Prod.mk.inj heq).2]

theorem lookup_map (f : α → β) (fields : List (String × α)) (key : String) :
    lookup key (fields.map fun field => (field.1, f field.2)) = (lookup key fields).map f := by
  induction fields with
  | nil => rfl
  | cons field fields ih =>
    obtain ⟨k, a⟩ := field
    rw [List.map_cons, lookup, lookup]
    split
    · rfl
    · exact ih

theorem collectItems_eq (items : List Value) :
    collectItems items = (items.map collect).flatten := by
  induction items with
  | nil => rfl
  | cons v items ih => rw [collectItems, ih, List.map_cons, List.flatten_cons]

theorem collectFields_eq (fields : List (String × Value)) :
    collectFields fields = fields.map fun field => (field.1, collect field.2) := by
  induction fields with
  | nil => rfl
  | cons field fields ih =>
    obtain ⟨key, v⟩ := field
    rw [collectFields, collectField, ih, List.map_cons]

theorem canonicalItems_eq (env : Crates) (items : List Value) :
    canonicalItems env items = items.map (canonical env) := by
  induction items with
  | nil => rfl
  | cons v items ih => rw [canonicalItems, ih, List.map_cons]

theorem canonicalFields_eq (env : Crates) (fields : List (String × Value)) :
    canonicalFields env fields = fields.map fun field => (field.1, canonical env field.2) := by
  induction fields with
  | nil => rfl
  | cons field fields ih =>
    obtain ⟨key, v⟩ := field
    rw [canonicalFields, canonicalField, ih, List.map_cons]

/-- The string under a key. -/
def textOf (key : String) (fields : List (String × Value)) : Option String :=
  (lookup key fields).bind Value.asStr

/-- The file and the function a frame names, under either spelling of each. -/
def resolvedFrame (fields : List (String × Value)) : Option (String × String) :=
  match ((lookup "filename" fields).or (lookup "file" fields)).bind Value.asStr,
      ((lookup "function" fields).or (lookup "function_name" fields)).bind Value.asStr with
  | some file, some function => some (file, function)
  | _, _ => none

theorem frameEntry_eq (fields : List (String × Value)) :
    frameEntry fields = (resolvedFrame fields).map fun frame => s!"frame:{frame.1}:{frame.2}" := by
  unfold frameEntry resolvedFrame
  cases ((lookup "filename" fields).or (lookup "file" fields)).bind Value.asStr with
  | none => rfl
  | some file =>
    cases ((lookup "function" fields).or (lookup "function_name" fields)).bind Value.asStr <;> rfl

theorem collect_object (fields : List (String × Value)) :
    collect (.object fields) =
      textKeys.filterMap (fun key => (textOf key fields).map fun text => s!"{key}:{text}") ++
        nestedKeys.flatMap (fun key => ((lookup key fields).map collect).getD []) ++
        ((resolvedFrame fields).map fun frame => s!"frame:{frame.1}:{frame.2}").toList := by
  rw [collect, collectFields_eq, frameEntry_eq]
  simp only [lookup_map]
  rfl

def Scalar : Value → Prop
  | .null | .bool _ | .number _ | .string _ => True
  | .array _ | .object _ => False

/-- Two trees that agree on everything grouping looks at. -/
inductive Equivalent : Value → Value → Prop where
  | object {a b : List (String × Value)}
      (texts : ∀ key ∈ textKeys, textOf key a = textOf key b)
      (present : ∀ key ∈ nestedKeys, (lookup key a).isSome = (lookup key b).isSome)
      (nested : ∀ key ∈ nestedKeys, ∀ v w, lookup key a = some v → lookup key b = some w →
        Equivalent v w)
      (frame : resolvedFrame a = resolvedFrame b) : Equivalent (.object a) (.object b)
  | array {a b : List Value} (length : a.length = b.length)
      (items : ∀ (i : Nat) v w, a[i]? = some v → b[i]? = some w → Equivalent v w) :
      Equivalent (.array a) (.array b)
  | scalar {v w : Value} (left : Scalar v) (right : Scalar w) : Equivalent v w

/-- Two trees that differ in the order of object keys only. -/
inductive Reordered : Value → Value → Prop where
  | object {a b : List (String × Value)} (distinct : (a.map Prod.fst).Nodup)
      (keys : (a.map Prod.fst).Perm (b.map Prod.fst))
      (values : ∀ key v w, lookup key a = some v → lookup key b = some w → Reordered v w) :
      Reordered (.object a) (.object b)
  | array {a b : List Value} (length : a.length = b.length)
      (items : ∀ (i : Nat) v w, a[i]? = some v → b[i]? = some w → Reordered v w) :
      Reordered (.array a) (.array b)
  | scalar {v : Value} (h : Scalar v) : Reordered v v

theorem collect_scalar {v : Value} (h : Scalar v) : collect v = [] := by
  cases v with
  | array items => cases h
  | object fields => cases h
  | _ => rfl

/-- Lists that correspond item by item have equal images. -/
theorem map_eq_of_items {f : α → β} {a b : List α} (hlength : a.length = b.length)
    (h : ∀ (i : Nat) v w, a[i]? = some v → b[i]? = some w → f v = f w) : a.map f = b.map f := by
  refine List.ext_getElem (by simpa using hlength) fun i hi hi' => ?_
  rw [List.length_map] at hi hi'
  rw [List.getElem_map, List.getElem_map]
  exact h i _ _ (List.getElem?_eq_getElem hi) (List.getElem?_eq_getElem hi')

/-- Keys that are absent in both or present in both have equal images. -/
theorem lookup_map_eq {f : Value → β} {a b : List (String × Value)} {key : String}
    (hpresent : (lookup key a).isSome = (lookup key b).isSome)
    (h : ∀ v w, lookup key a = some v → lookup key b = some w → f v = f w) :
    (lookup key a).map f = (lookup key b).map f := by
  cases ha : lookup key a with
  | none =>
    rw [ha] at hpresent
    have hb : lookup key b = none := by simpa using hpresent.symm
    rw [hb]
  | some v =>
    rw [ha] at hpresent
    obtain ⟨w, hw⟩ := Option.isSome_iff_exists.mp hpresent.symm
    rw [hw, Option.map_some, Option.map_some, h v w ha hw]

/-- Equivalent trees give the same entries. -/
theorem Equivalent.collect {v w : Value} (h : Equivalent v w) :
    Fingerprint.collect v = Fingerprint.collect w := by
  induction h with
  | object texts present nested frame ih =>
    rw [collect_object, collect_object, frame]
    congr 2
    · refine List.filterMap_congr fun key hkey => ?_
      rw [texts key hkey]
    · refine List.flatMap_congr fun key hkey => ?_
      rw [lookup_map_eq (present key hkey) (ih key hkey)]
  | array length items ih =>
    rw [Fingerprint.collect, Fingerprint.collect, collectItems_eq, collectItems_eq,
      map_eq_of_items length ih]
  | scalar left right => rw [collect_scalar left, collect_scalar right]

theorem Reordered.present {a b : List (String × Value)}
    (keys : (a.map Prod.fst).Perm (b.map Prod.fst)) (key : String) :
    (lookup key a).isSome = (lookup key b).isSome := by
  rw [Bool.eq_iff_iff, lookup_isSome, lookup_isSome, keys.mem_iff]

theorem Reordered.asStr {v w : Value} (h : Reordered v w) : v.asStr = w.asStr := by
  cases h <;> rfl

theorem Reordered.equivalent {v w : Value} (h : Reordered v w) : Equivalent v w := by
  induction h with
  | @object a b distinct keys values ih =>
    have htext : ∀ key, (lookup key a).map Value.asStr = (lookup key b).map Value.asStr :=
      fun key => lookup_map_eq (Reordered.present keys key) fun v w hv hw =>
        (values key v w hv hw).asStr
    have hbind : ∀ key, textOf key a = textOf key b := by
      intro key
      have hjoin : ∀ o : Option Value, o.bind Value.asStr = (o.map Value.asStr).join := by
        intro o
        cases o <;> rfl
      rw [textOf, textOf, hjoin, hjoin, htext key]
    have heither : ∀ first second,
        ((lookup first a).or (lookup second a)).bind Value.asStr =
          ((lookup first b).or (lookup second b)).bind Value.asStr := by
      intro first second
      have hfirst := htext first
      cases ha : lookup first a <;> cases hb : lookup first b <;>
        simp only [ha, hb, Option.map_none, Option.map_some, reduceCtorEq,
          Option.some.injEq] at hfirst
      · exact hbind second
      · exact hfirst
    refine .object (fun key _ => hbind key) (fun key _ => Reordered.present keys key)
      (fun key _ => ih key) ?_
    rw [resolvedFrame, resolvedFrame, heither, heither]
  | array length items ih => exact .array length ih
  | scalar h => exact .scalar h h

/-- Entries of the same keys with the same texts are sorted into the same list. -/
theorem mergeSort_eq {a b : List (String × String)} (hdistinct : (a.map Prod.fst).Nodup)
    (hperm : a.Perm b) :
    (a.mergeSort fun x y => x.1 ≤ y.1) = b.mergeSort fun x y => x.1 ≤ y.1 := by
  have hsorted : ∀ l : List (String × String),
      (l.mergeSort fun x y => x.1 ≤ y.1).Pairwise fun x y => decide (x.1 ≤ y.1) = true := by
    intro l
    apply List.pairwise_mergeSort
    · intro x y z hxy hyz
      rw [decide_eq_true_eq] at hxy hyz ⊢
      exact le_trans hxy hyz
    · intro x y
      simpa using le_total x.1 y.1
  refine List.Perm.eq_of_pairwise (fun x y hx hy hxy hyx => ?_) (hsorted a) (hsorted b)
    ((List.mergeSort_perm a _).trans (hperm.trans (List.mergeSort_perm b _).symm))
  rw [decide_eq_true_eq] at hxy hyx
  have hxa : x ∈ a := (List.mergeSort_perm a _).mem_iff.mp hx
  have hya : y ∈ a := hperm.mem_iff.mpr ((List.mergeSort_perm b _).mem_iff.mp hy)
  exact List.inj_on_of_nodup_map hdistinct hxa hya (le_antisymm hxy hyx)

theorem Reordered.canonical (env : Crates) {v w : Value} (h : Reordered v w) :
    Fingerprint.canonical env v = Fingerprint.canonical env w := by
  induction h with
  | @object a b distinct keys values ih =>
    have hkeys : ∀ fields : List (String × Value),
        (canonicalFields env fields).map Prod.fst = fields.map Prod.fst := by
      intro fields
      rw [canonicalFields_eq, List.map_map]
      rfl
    have hdistinct : ((canonicalFields env a).map Prod.fst).Nodup := by rwa [hkeys]
    have hdistinct' : ((canonicalFields env b).map Prod.fst).Nodup := by
      rw [hkeys]
      exact keys.nodup_iff.mp distinct
    have hperm : (canonicalFields env a).Perm (canonicalFields env b) := by
      rw [List.perm_ext_iff_of_nodup hdistinct.of_map hdistinct'.of_map]
      rintro ⟨key, text⟩
      rw [mem_iff_lookup hdistinct, mem_iff_lookup hdistinct', canonicalFields_eq,
        canonicalFields_eq, lookup_map, lookup_map,
        lookup_map_eq (Reordered.present keys key) (ih key)]
    rw [Fingerprint.canonical, Fingerprint.canonical, mergeSort_eq hdistinct hperm]
  | array length items ih =>
    rw [Fingerprint.canonical, Fingerprint.canonical, canonicalItems_eq, canonicalItems_eq,
      map_eq_of_items length ih]
  | scalar => rfl

/-- The components of a list that is not empty. -/
def partsOf (o : Option Value) : Option (List String) :=
  match o.bind Value.asArray with
  | some (part :: parts) => some ((part :: parts).filterMap Value.asStr)
  | _ => none

theorem explicitParts_eq (event : Value) :
    Fingerprint.explicitParts event = partsOf (event.get "fingerprint") := rfl

theorem Reordered.partsOf {v w : Value} (h : Reordered v w) :
    Grouping.partsOf (some v) = Grouping.partsOf (some w) := by
  cases h with
  | object => rfl
  | scalar => rfl
  | @array a b length items =>
    have hstr := map_eq_of_items length fun i v w hv hw => (items i v w hv hw).asStr
    have hfilter : a.filterMap Value.asStr = b.filterMap Value.asStr := by
      have hid : ∀ l : List Value, l.filterMap Value.asStr = (l.map Value.asStr).filterMap id := by
        intro l
        rw [List.filterMap_map]
        rfl
      rw [hid, hid, hstr]
    cases a with
    | nil => rw [List.length_eq_zero_iff.mp length.symm]
    | cons v a =>
      cases b with
      | nil => cases length
      | cons w b => exact congrArg some hfilter

theorem Reordered.explicitParts {v w : Value} (h : Reordered v w) :
    Fingerprint.explicitParts v = Fingerprint.explicitParts w := by
  cases h with
  | array => rfl
  | scalar => rfl
  | @object a b distinct keys values =>
    rw [explicitParts_eq, explicitParts_eq, Value.get, Value.get]
    have hpresent := Reordered.present keys "fingerprint"
    cases ha : lookup "fingerprint" a with
    | none =>
      rw [ha] at hpresent
      have hb : lookup "fingerprint" b = none := by simpa using hpresent.symm
      rw [hb]
    | some v =>
      rw [ha] at hpresent
      obtain ⟨w, hb⟩ := Option.isSome_iff_exists.mp hpresent.symm
      rw [hb]
      exact (values "fingerprint" v w ha hb).partsOf

/-- An event with a string message has entries. -/
theorem collect_ne_nil {event : Value} {message : String}
    (h : (event.get "message").bind Value.asStr = some message) :
    Fingerprint.collect event ≠ [] := by
  cases event with
  | object fields =>
    rw [collect_object]
    have htext : textOf "message" fields = some message := h
    have hmem : s!"message:{message}" ∈
        textKeys.filterMap fun key => (textOf key fields).map fun text => s!"{key}:{text}" :=
      List.mem_filterMap.mpr ⟨"message", by simp [textKeys], by rw [htext]; rfl⟩
    exact List.ne_nil_of_mem
      (List.mem_append_left _ (List.mem_append_left _ hmem))
  | _ => cases h

/-- Events that agree on what grouping looks at share their derived fingerprint,
and the order of keys is without influence on any fingerprint. -/
theorem grouping_invariant (env : Crates) :
    (∀ v w message, Equivalent v w → explicitParts v = none → explicitParts w = none →
      (v.get "message").bind Value.asStr = some message →
      eventFingerprint env v = eventFingerprint env w) ∧
    ∀ v w, Reordered v w → eventFingerprint env v = eventFingerprint env w := by
  constructor
  · intro v w message h hv hw hmessage
    have hne := collect_ne_nil hmessage
    have hcollect := h.collect
    simp only [eventFingerprint, hv, hw]
    rw [if_neg hne, if_neg (hcollect ▸ hne), hcollect]
  · intro v w h
    simp only [eventFingerprint, h.explicitParts, h.equivalent.collect, h.canonical env]

namespace Sample

def frame (line : Int) : Value :=
  .object [("file", .string "main.rs"), ("function", .string "run"), ("line", .number (.int line))]

/-- An event with one frame, its line and the time of the event. -/
def traced (line timestamp : Int) : Value :=
  .object [("frames", .array [frame line]), ("message", .string "boom"),
    ("timestamp", .number (.int timestamp))]

end Sample

theorem grouping_invariant_traced :
    eventFingerprint Zbierak.Sample.crates (Sample.traced 1 1) =
      eventFingerprint Zbierak.Sample.crates (Sample.traced 99 2) ∧
    eventFingerprint Zbierak.Sample.crates (.object [("message", .string "m"), ("code", .null)]) =
      eventFingerprint Zbierak.Sample.crates
        (.object [("code", .null), ("message", .string "m")]) := by
  obtain ⟨hequivalent, hreordered⟩ := grouping_invariant Zbierak.Sample.crates
  have hframe : Equivalent (Sample.frame 1) (Sample.frame 99) := by
    refine .object (by decide) (by decide) (fun key hkey v w hv _ => ?_) (by decide)
    have hmem := List.mem_map_of_mem (f := Prod.fst) (lookup_mem hv)
    simp only [nestedKeys, List.mem_cons, List.not_mem_nil, or_false] at hkey
    rcases hkey with rfl | rfl | rfl | rfl | rfl | rfl <;> simp at hmem
  have htraced : Equivalent (Sample.traced 1 1) (Sample.traced 99 2) := by
    refine .object (by decide) (by decide) (fun key hkey v w hv hw => ?_) (by decide)
    have hmem := List.mem_map_of_mem (f := Prod.fst) (lookup_mem hv)
    simp only [nestedKeys, List.mem_cons, List.not_mem_nil, or_false] at hkey
    rcases hkey with rfl | rfl | rfl | rfl | rfl | rfl
    · cases hv
      cases hw
      refine .array rfl fun i v w hv hw => ?_
      cases i with
      | zero =>
        cases hv
        cases hw
        exact hframe
      | succ i => cases hv
    all_goals simp at hmem
  refine ⟨hequivalent _ _ "boom" htraced rfl rfl rfl, hreordered _ _ ?_⟩
  refine .object (by decide) (.swap _ _ _) fun key v w hv hw => ?_
  rcases List.mem_cons.mp (lookup_mem hv) with h | h
  · cases h
    cases hw
    exact .scalar trivial
  · obtain ⟨rfl, rfl⟩ := Prod.mk.inj (List.mem_singleton.mp h)
    cases hw
    exact .scalar trivial

end Zbierak.Grouping
