import Mathlib.Data.List.Nodup
import Mathlib.Order.Lattice
import Mathlib.Data.List.Pairwise

/-!
# Records and maps as members of a document

A record is written as its members in the order of its fields, a field that has
nothing to say is left out, and it is read back from members in any order or
from items by position. A map is read by inserting members one after another
and is kept in key order.
-/
namespace Record

variable {κ V α β : Type}

section Map

variable [LinearOrder κ]

/-- The newest member of a key stands. -/
def insert (key : κ) (v : V) : List (κ × V) → List (κ × V)
  | [] => [(key, v)]
  | (k, w) :: rest =>
    if key < k then (key, v) :: (k, w) :: rest
    else if k < key then (k, w) :: insert key v rest
    else (key, v) :: rest

/-- The map that members in any order give. -/
def collect (members : List (κ × V)) : List (κ × V) :=
  members.foldl (fun map member => insert member.1 member.2 map) []

/-- What a map in key order looks like. -/
def Ascending (map : List (κ × V)) : Prop := map.Pairwise fun a b => a.1 < b.1

theorem insert_last {map : List (κ × V)} {key : κ} (v : V) (h : ∀ member ∈ map, member.1 < key) :
    insert key v map = map ++ [(key, v)] := by
  induction map with
  | nil => rfl
  | cons member map ih =>
    have hlt : member.1 < key := h member List.mem_cons_self
    rw [insert, if_neg (lt_asymm hlt), if_pos hlt, ih fun m hm => h m (List.mem_cons_of_mem _ hm)]
    rfl

/-- A map that is in key order already is read as it stands. -/
theorem collect_ascending {map : List (κ × V)} (h : Ascending map) : collect map = map := by
  have hfold : ∀ (rest done : List (κ × V)), Ascending (done ++ rest) →
      rest.foldl (fun map member => insert member.1 member.2 map) done = done ++ rest := by
    intro rest
    induction rest with
    | nil => simp
    | cons member rest ih =>
      intro done hdone
      have hlast : ∀ m ∈ done, m.1 < member.1 := fun m hm =>
        (List.pairwise_append.mp hdone).2.2 m hm member List.mem_cons_self
      rw [List.foldl_cons, insert_last _ hlast, ih _ (by simpa using hdone), List.append_assoc]
      rfl
  exact hfold map [] h

theorem mem_of_mem_insert {map : List (κ × V)} {key : κ} {v : V} {member : κ × V}
    (h : member ∈ insert key v map) : member = (key, v) ∨ member ∈ map := by
  induction map with
  | nil => exact .inl (List.mem_singleton.mp h)
  | cons first map ih =>
    rw [insert] at h
    split at h
    · exact List.mem_cons.mp h
    · split at h
      · rcases List.mem_cons.mp h with rfl | h
        · exact .inr List.mem_cons_self
        · exact (ih h).imp id (List.mem_cons_of_mem _)
      · exact (List.mem_cons.mp h).imp id (List.mem_cons_of_mem _)

theorem Ascending.insert {map : List (κ × V)} (h : Ascending map) (key : κ) (v : V) :
    Ascending (insert key v map) := by
  induction map with
  | nil => exact List.pairwise_singleton _ _
  | cons first map ih =>
    obtain ⟨hfirst, hmap⟩ := List.pairwise_cons.mp h
    rw [Record.insert]
    split
    · next hlt =>
      refine List.pairwise_cons.mpr ⟨fun member hmember => ?_, h⟩
      rcases List.mem_cons.mp hmember with rfl | hmember
      · exact hlt
      · exact hlt.trans (hfirst member hmember)
    · next hle =>
      split
      · next hlt =>
        refine List.pairwise_cons.mpr ⟨fun member hmember => ?_, ih hmap⟩
        rcases mem_of_mem_insert hmember with rfl | hmember
        · exact hlt
        · exact hfirst member hmember
      · next hge =>
        obtain rfl : key = first.1 := le_antisymm (not_lt.mp hge) (not_lt.mp hle)
        exact List.pairwise_cons.mpr ⟨hfirst, hmap⟩

theorem mem_insert {map : List (κ × V)} {key : κ} {v : V} (h : ∀ member ∈ map, member.1 ≠ key)
    {member : κ × V} : member ∈ insert key v map ↔ member = (key, v) ∨ member ∈ map := by
  induction map with
  | nil => simp [insert]
  | cons first map ih =>
    rw [insert]
    split
    · rw [List.mem_cons]
    · next hle =>
      have hne := h first List.mem_cons_self
      rw [if_pos (lt_of_le_of_ne (not_lt.mp hle) hne), List.mem_cons, List.mem_cons,
        ih fun m hm => h m (List.mem_cons_of_mem _ hm)]
      exact or_left_comm

/-- A map keeps each member that was inserted under a key of its own. -/
theorem mem_collect {members : List (κ × V)} (h : (members.map Prod.fst).Nodup) {member : κ × V} :
    member ∈ collect members ↔ member ∈ members := by
  have hfold : ∀ (rest done : List (κ × V)), (rest.map Prod.fst).Nodup →
      (∀ m ∈ done, m.1 ∉ rest.map Prod.fst) →
      (member ∈ rest.foldl (fun map member => insert member.1 member.2 map) done ↔
        member ∈ done ∨ member ∈ rest) := by
    intro rest
    induction rest with
    | nil => simp
    | cons first rest ih =>
      intro done hrest hdone
      rw [List.map_cons, List.nodup_cons] at hrest
      have hfirst : ∀ m ∈ done, m.1 ≠ first.1 := fun m hm heq =>
        hdone m hm (heq ▸ List.mem_cons_self)
      have hinsert : ∀ m ∈ insert first.1 first.2 done, m.1 ∉ rest.map Prod.fst := fun m hm => by
        rcases mem_of_mem_insert hm with rfl | hm
        · exact hrest.1
        · exact fun hkey => hdone m hm (List.mem_cons_of_mem _ hkey)
      rw [List.foldl_cons, ih _ hrest.2 hinsert, mem_insert hfirst, List.mem_cons, or_assoc]
      exact or_left_comm
  exact (hfold members [] h (by simp)).trans (by simp)

theorem ascending_collect (members : List (κ × V)) : Ascending (collect members) := by
  have hfold : ∀ (rest done : List (κ × V)), Ascending done →
      Ascending (rest.foldl (fun map member => insert member.1 member.2 map) done) := by
    intro rest
    induction rest with
    | nil => exact fun _ h => h
    | cons first rest ih => exact fun done h => ih _ (h.insert first.1 first.2)
  exact hfold members [] List.Pairwise.nil

theorem Ascending.nodup {map : List (κ × V)} (h : Ascending map) : (map.map Prod.fst).Nodup := by
  rw [List.Nodup, List.pairwise_map]
  exact List.Pairwise.imp (fun hlt => ne_of_lt hlt) h

end Map

/-- The members that are written. -/
def members (fields : List (κ × Option V)) : List (κ × V) :=
  fields.filterMap fun field => field.2.map fun v => (field.1, v)

theorem mem_members {fields : List (κ × Option V)} {key : κ} {v : V} :
    (key, v) ∈ members fields ↔ (key, some v) ∈ fields := by
  simp only [members, List.mem_filterMap, Option.map_eq_some_iff, Prod.mk.injEq]
  constructor
  · rintro ⟨⟨k, o⟩, hfield, w, rfl, rfl, rfl⟩
    exact hfield
  · exact fun hfield => ⟨_, hfield, v, rfl, rfl, rfl⟩

theorem members_keys (fields : List (κ × Option V)) :
    ((members fields).map Prod.fst).Sublist (fields.map Prod.fst) := by
  induction fields with
  | nil => exact List.Sublist.refl _
  | cons field fields ih =>
    obtain ⟨key, o⟩ := field
    cases o with
    | none => exact ih.cons key
    | some v => exact ih.cons_cons key

/-- What a record is read from. -/
inductive Source (κ V : Type) where
  | named (members : List (κ × V))
  | listed (items : List V)

/-- Read one field. A name that occurs twice is refused. -/
def Source.field [DecidableEq κ] (source : Source κ V) (index : Nat) (key : κ) (read : V → Option α)
    (missing : Option α) : Option α :=
  match source with
  | .named members =>
    match members.filter (·.1 = key) with
    | [] => missing
    | [member] => read member.2
    | _ :: _ :: _ => none
  | .listed items =>
    match items[index]? with
    | some v => read v
    | none => missing

theorem filter_members [DecidableEq κ] {fields : List (κ × Option V)} {key : κ} {o : Option V}
    (hdistinct : (fields.map Prod.fst).Nodup) (hmem : (key, o) ∈ fields) :
    (members fields).filter (·.1 = key) = (o.map fun v => (key, v)).toList := by
  have hother : ∀ fields : List (κ × Option V), key ∉ fields.map Prod.fst →
      (members fields).filter (·.1 = key) = [] := by
    intro fields hkey
    rw [List.filter_eq_nil_iff]
    intro member hmember
    obtain ⟨field, hfield, hsome⟩ := List.mem_filterMap.mp hmember
    obtain ⟨v, -, rfl⟩ := Option.map_eq_some_iff.mp hsome
    rw [decide_eq_true_eq]
    rintro rfl
    exact hkey (List.mem_map_of_mem hfield)
  induction fields with
  | nil => cases hmem
  | cons field fields ih =>
    rw [List.map_cons, List.nodup_cons] at hdistinct
    rcases List.mem_cons.mp hmem with rfl | hmem
    · have hrest := hother fields hdistinct.1
      cases o with
      | none => exact hrest
      | some v => simpa [members] using hrest
    · have hne : field.1 ≠ key := fun heq => hdistinct.1 (heq ▸ List.mem_map_of_mem hmem)
      have hrest := ih hdistinct.2 hmem
      cases hfield : field.2 with
      | none => simpa [members, hfield] using hrest
      | some v => simpa [members, hfield, hne] using hrest

/-- A field is read from what was written for it. -/
theorem field_members [DecidableEq κ] {fields : List (κ × Option V)} {key : κ} {o : Option V}
    (hdistinct : (fields.map Prod.fst).Nodup) (hmem : (key, o) ∈ fields) (index : Nat)
    (read : V → Option α) (missing : Option α) :
    (Source.named (members fields)).field index key read missing = o.elim missing read := by
  rw [Source.field, filter_members hdistinct hmem]
  cases o <;> rfl

/-- Items written one by one are read one by one. -/
theorem mapM_map {write : α → V} {read : V → Option β} {f : α → β} {xs : List α}
    (h : ∀ x ∈ xs, read (write x) = some (f x)) : (xs.map write).mapM read = some (xs.map f) := by
  induction xs with
  | nil => rfl
  | cons x xs ih =>
    rw [List.map_cons, List.mapM_cons, h x List.mem_cons_self,
      ih fun y hy => h y (List.mem_cons_of_mem x hy)]
    rfl

end Record
