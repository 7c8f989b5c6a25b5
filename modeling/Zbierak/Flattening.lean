import Zbierak.Codec
import Zbierak.Grouping
import Zbierak.Lib.Lines

/-!
# What the hashed text tells apart

A fingerprint is the digest of a flat text: entries one under the other, each
with its key or its file in front. Newlines and colons inside an entry are
written as they are, so the text gives the lines of the entries away and not
the entries themselves.
-/
namespace Zbierak.Flattening

open Fingerprint Grouping
open Value (lookup)

/-- Text members that take part in grouping. -/
inductive TextKey where
  | exceptionType | errorType | type | message
  deriving DecidableEq, Repr

def TextKey.name : TextKey → String
  | .exceptionType => "exception_type"
  | .errorType => "error_type"
  | .type => "type"
  | .message => "message"

def TextKey.all : List TextKey := [.exceptionType, .errorType, .type, .message]

/-- One thing grouping takes from a tree. -/
inductive Entry where
  | text (key : TextKey) (value : String)
  | frame (file function : String)
  deriving DecidableEq, Repr

def Entry.render : Entry → String
  | .text key value => s!"{key.name}:{value}"
  | .frame file function => s!"frame:{file}:{function}"

mutual

/-- The entries behind `collect`, before they are flattened. -/
def gather : Value → List Entry
  | .object fields =>
    let nested := gatherFields fields
    TextKey.all.filterMap (fun key => (textOf key.name fields).map (.text key)) ++
      (nestedKeys.flatMap fun key => (lookup key nested).getD []) ++
      ((resolvedFrame fields).map fun frame => .frame frame.1 frame.2).toList
  | .array items => gatherItems items
  | .null | .bool _ | .number _ | .string _ => []

def gatherItems : List Value → List Entry
  | [] => []
  | v :: rest => gather v ++ gatherItems rest

def gatherFields : List (String × Value) → List (String × List Entry)
  | [] => []
  | field :: rest => gatherField field :: gatherFields rest

def gatherField : String × Value → String × List Entry
  | (key, v) => (key, gather v)

end

theorem textEntry_eq (fields : List (String × Value)) (key : TextKey) :
    textEntry fields key.name =
      ((textOf key.name fields).map (Entry.text key)).map Entry.render := by
  unfold textEntry textOf
  cases (lookup key.name fields).bind Value.asStr <;> rfl

mutual

/-- The strings that are hashed are the entries, flattened. -/
theorem collect_eq : ∀ v : Value, collect v = (gather v).map Entry.render
  | .object fields => by
    have hnested : ∀ key, (lookup key (collectFields fields)).getD [] =
        ((lookup key (gatherFields fields)).getD []).map Entry.render := by
      intro key
      rw [collectFields_eq_map fields, lookup_map]
      cases lookup key (gatherFields fields) <;> rfl
    have hframe : (frameEntry fields).toList =
        ((resolvedFrame fields).map fun frame => Entry.frame frame.1 frame.2).toList.map
          Entry.render := by
      rw [frameEntry_eq]
      cases resolvedFrame fields <;> rfl
    rw [collect, gather, List.map_append, List.map_append, List.map_flatMap, hframe]
    simp only [hnested]
    congr 2
    have hkeys : textKeys = TextKey.all.map TextKey.name := rfl
    rw [List.map_filterMap, hkeys, List.filterMap_map]
    refine List.filterMap_congr fun key _ => ?_
    exact textEntry_eq fields key
  | .array items => collectItems_eq_map items
  | .null | .bool _ | .number _ | .string _ => rfl

theorem collectItems_eq_map : ∀ items : List Value,
    collectItems items = (gatherItems items).map Entry.render
  | [] => rfl
  | v :: rest => by
    rw [collectItems, gatherItems, collect_eq v, collectItems_eq_map rest, List.map_append]

theorem collectFields_eq_map : ∀ fields : List (String × Value), collectFields fields =
    (gatherFields fields).map fun field => (field.1, field.2.map Entry.render)
  | [] => rfl
  | field :: rest => by
    rw [collectFields, gatherFields, collectField_eq_map field, collectFields_eq_map rest,
      List.map_cons]

theorem collectField_eq_map : ∀ field : String × Value,
    collectField field = ((gatherField field).1, (gatherField field).2.map Entry.render)
  | (key, v) => by
    rw [collectField, gatherField, collect_eq v]

end

/-- What an event is grouped by. -/
inductive Content where
  | explicit (parts : List String)
  | derived (entries : List Entry)
  deriving DecidableEq, Repr

def content (event : Value) : Content :=
  match explicitParts event with
  | some parts => .explicit parts
  | none => .derived (gather event)

/-- The text that is hashed. -/
def hashed (env : Crates) (event : Value) : String :=
  match content event with
  | .explicit parts => "explicit\n" ++ "\n".intercalate parts
  | .derived [] => canonical env event
  | .derived (entry :: entries) => "\n".intercalate ((entry :: entries).map Entry.render)

theorem eventFingerprint_eq (env : Crates) (event : Value) :
    eventFingerprint env event = env.blake3Hex (hashed env event) := by
  unfold eventFingerprint hashed content
  cases explicitParts event with
  | some parts => rfl
  | none =>
    rw [collect_eq]
    cases gather event with
    | nil => exact congrArg env.blake3Hex String.intercalate_singleton
    | cons entry entries => rfl

/-- The texts that stand one under the other. -/
def Content.texts : Content → List String
  | .explicit parts => parts
  | .derived entries => entries.map Entry.render

def Content.lines (c : Content) : List (List Char) :=
  Lines.pieces '\n' (c.texts.map String.toList)

/-- The same kind of content, and the same lines. -/
def SameLines : Content → Content → Prop
  | .explicit parts, .explicit others =>
    (Content.explicit parts).lines = (Content.explicit others).lines
  | .derived entries, .derived others =>
    (Content.derived entries).lines = (Content.derived others).lines
  | _, _ => False

/-- Text without a newline, and no colon in a file's name. -/
def Entry.Plain : Entry → Prop
  | .text _ value => '\n' ∉ value.toList
  | .frame file function => '\n' ∉ file.toList ∧ ':' ∉ file.toList ∧ '\n' ∉ function.toList

def Content.Plain : Content → Prop
  | .explicit parts => ∀ part ∈ parts, '\n' ∉ part.toList
  | .derived entries => ∀ entry ∈ entries, entry.Plain

instance : ∀ entry : Entry, Decidable entry.Plain
  | .text _ value => inferInstanceAs (Decidable ('\n' ∉ value.toList))
  | .frame file function => inferInstanceAs
      (Decidable ('\n' ∉ file.toList ∧ ':' ∉ file.toList ∧ '\n' ∉ function.toList))

instance : ∀ c : Content, Decidable c.Plain
  | .explicit parts => inferInstanceAs (Decidable (∀ part ∈ parts, '\n' ∉ part.toList))
  | .derived entries => inferInstanceAs (Decidable (∀ entry ∈ entries, entry.Plain))

theorem TextKey.name_inj {key other : TextKey} (h : key.name = other.name) : key = other := by
  cases key <;> cases other <;> simp [TextKey.name] at h ⊢

theorem TextKey.colon_not_mem (key : TextKey) : ':' ∉ key.name.toList := by
  cases key <;> decide

theorem TextKey.newline_not_mem (key : TextKey) : '\n' ∉ key.name.toList := by
  cases key <;> decide

theorem toList_text (key : TextKey) (value : String) :
    (Entry.text key value).render.toList = key.name.toList ++ ':' :: value.toList := by
  change (key.name ++ ":" ++ value).toList = _
  simp

theorem toList_frame (file function : String) :
    (Entry.frame file function).render.toList =
      "frame".toList ++ ':' :: (file.toList ++ ':' :: function.toList) := by
  change ("frame:" ++ file ++ ":" ++ function).toList = _
  simp

/-- Plain entries are told apart by their texts. -/
theorem Entry.render_inj {entry other : Entry} (h : entry.Plain) (h' : other.Plain)
    (heq : entry.render = other.render) : entry = other := by
  have hlist := congrArg String.toList heq
  cases entry with
  | text key value =>
    cases other with
    | text key' value' =>
      rw [toList_text, toList_text] at hlist
      obtain ⟨hname, hvalue⟩ := Text.split_eq key.colon_not_mem key'.colon_not_mem hlist
      rw [TextKey.name_inj (String.toList_injective hname), String.toList_injective hvalue]
    | frame file function =>
      rw [toList_text, toList_frame] at hlist
      obtain ⟨hname, -⟩ := Text.split_eq key.colon_not_mem (by decide) hlist
      exact absurd (String.toList_injective hname) (by cases key <;> decide)
  | frame file function =>
    cases other with
    | text key value =>
      rw [toList_text, toList_frame] at hlist
      obtain ⟨hname, -⟩ := Text.split_eq (by decide) key.colon_not_mem hlist
      exact absurd (String.toList_injective hname) (by cases key <;> decide)
    | frame file' function' =>
      rw [toList_frame, toList_frame] at hlist
      obtain ⟨-, hrest⟩ := Text.split_eq (by decide) (by decide) hlist
      obtain ⟨hfile, hfunction⟩ := Text.split_eq h.2.1 h'.2.1 hrest
      rw [String.toList_injective hfile, String.toList_injective hfunction]

theorem Entry.Plain.newline_not_mem {entry : Entry} (h : entry.Plain) :
    '\n' ∉ entry.render.toList := by
  cases entry with
  | text key value =>
    have hvalue : '\n' ∉ value.toList := h
    rw [toList_text]
    simpa [key.newline_not_mem] using hvalue
  | frame file function =>
    rw [toList_frame]
    simpa [Entry.Plain] using ⟨h.1, h.2.2⟩

theorem lines_of_plain {c : Content} (h : c.Plain) : c.lines = c.texts.map String.toList := by
  refine Lines.pieces_of_not_mem fun text htext => ?_
  obtain ⟨s, hs, rfl⟩ := List.mem_map.mp htext
  cases c with
  | explicit parts => exact h s hs
  | derived entries =>
    obtain ⟨entry, hentry, rfl⟩ := List.mem_map.mp hs
    exact (h entry hentry).newline_not_mem

theorem eq_of_map_render {entries others : List Entry} (h : ∀ entry ∈ entries, entry.Plain)
    (h' : ∀ entry ∈ others, entry.Plain)
    (heq : entries.map Entry.render = others.map Entry.render) : entries = others := by
  induction entries generalizing others with
  | nil => exact (List.map_eq_nil_iff.mp heq.symm).symm
  | cons entry entries ih =>
    cases others with
    | nil => cases heq
    | cons other others =>
      rw [List.forall_mem_cons] at h h'
      obtain ⟨hhead, htail⟩ := List.cons.inj heq
      rw [Entry.render_inj h.1 h'.1 hhead, ih h.2 h'.2 htail]

/-- Plain contents with the same lines are the same. -/
theorem SameLines.eq_of_plain {c d : Content} (hc : c.Plain) (hd : d.Plain) (h : SameLines c d) :
    c = d := by
  have htexts : ∀ {c d : Content}, c.Plain → d.Plain → c.lines = d.lines → c.texts = d.texts := by
    intro c d hc hd h
    rw [lines_of_plain hc, lines_of_plain hd] at h
    exact List.map_injective_iff.mpr (fun _ _ => String.toList_injective) h
  cases c with
  | explicit parts =>
    cases d with
    | explicit others => exact congrArg Content.explicit (htexts hc hd h)
    | derived others => cases h
  | derived entries =>
    cases d with
    | explicit others => cases h
    | derived others =>
      exact congrArg Content.derived (eq_of_map_render hc hd (htexts hc hd h))

theorem bind_ok_iff {ε α β : Type} {x : Except ε α} {f : α → Except ε β} {b : β} :
    x >>= f = .ok b ↔ ∃ a, x = .ok a ∧ f a = .ok b := by
  cases x with
  | error e => simp [bind, Except.bind]
  | ok a => simp [bind, Except.bind]

theorem check_ok_iff {ε β : Type} {c : Prop} [Decidable c] {e : ε} {x : Except ε β} {b : β} :
    (if c then .error e else x) = .ok b ↔ ¬ c ∧ x = .ok b := by
  split <;> simp [*]

theorem error_bind {ε α β : Type} {e : ε} {f : α → Except ε β} :
    (Except.error e >>= f) = .error e := rfl

/-- Two of the things a validated event has passed. -/
theorem validate_ok {parse : String → Option OffsetDateTime} {event : Event}
    (h : event.validate parse = .ok ()) :
    event.version = protocolVersion ∧ event.fingerprint ≠ some [] := by
  unfold Event.validate at h
  simp only [error_bind, check_ok_iff, bind_ok_iff] at h
  obtain ⟨hversion, -, -, -, -, -, -, -, -, -, -, -, -, -, -, -, h⟩ := h
  refine ⟨not_not.mp hversion, fun hfingerprint => ?_⟩
  rw [hfingerprint] at h
  cases herror : event.error with
  | none => simp [herror] at h
  | some error => simp [herror, bind_ok_iff] at h

/-- A field that was read from members. -/
theorem field_named {α : Type} {members : List (String × Value)} {index : Nat} {key : String}
    {read : Value → Option α} {missing : Option α} {a : α}
    (h : (Record.Source.named members).field index key read missing = some a) :
    (lookup key members = none ∧ missing = some a) ∨
      ∃ v, lookup key members = some v ∧ read v = some a := by
  have hlookup : ∀ members : List (String × Value),
      lookup key members = ((members.filter (·.1 = key)).head?).map Prod.snd := by
    intro members
    induction members with
    | nil => rfl
    | cons member members ih =>
      obtain ⟨k, v⟩ := member
      by_cases hk : k = key
      · simp [lookup, hk]
      · simp [lookup, hk, ih]
  rw [hlookup]
  rw [Record.Source.field] at h
  split at h
  · next hfilter =>
    rw [hfilter]
    exact .inl ⟨rfl, h⟩
  · next member hfilter =>
    rw [hfilter]
    exact .inr ⟨member.2, rfl, h⟩
  · cases h

theorem filterMap_of_mapM {items : List Value} {texts : List String}
    (h : items.mapM Value.asStr = some texts) : items.filterMap Value.asStr = texts := by
  induction items generalizing texts with
  | nil =>
    cases h
    rfl
  | cons v items ih =>
    simp only [List.mapM_cons, Option.bind_eq_bind, Option.bind_eq_some_iff] at h
    obtain ⟨text, htext, rest, hrest, heq⟩ := h
    cases heq
    rw [List.filterMap_cons, htext]
    exact congrArg (text :: ·) (ih hrest)

/-- The message and the fingerprint of an event that was sent as an object. -/
theorem read_object {fields : List (String × Value)} {event : Event}
    (h : Event.deserialize (.object fields) = some event) :
    textOf "message" fields = some event.message ∧
      (event.fingerprint ≠ some [] →
        partsOf (lookup "fingerprint" fields) = event.fingerprint) := by
  obtain ⟨-, -, hmessage, hfingerprint⟩ := Event.read_some h
  constructor
  · rcases field_named hmessage with ⟨-, hmissing⟩ | ⟨v, hlookup, hread⟩
    · cases hmissing
    · rw [textOf, hlookup]
      exact hread
  · intro hne
    rcases field_named hfingerprint with ⟨hlookup, hmissing⟩ | ⟨v, hlookup, hread⟩
    · rw [hlookup, ← Option.some.inj hmissing]
      rfl
    · rw [hlookup]
      cases v with
      | null =>
        rw [← Option.some.inj hread]
        rfl
      | array items =>
        obtain ⟨parts, hparts, heq⟩ := Option.map_eq_some_iff.mp hread
        have htexts := filterMap_of_mapM hparts
        rw [← heq] at hne ⊢
        cases items with
        | nil =>
          cases htexts
          exact absurd rfl hne
        | cons v items => exact congrArg some htexts
      | _ => cases hread

/-- A tree that is read as an event which passes validation. -/
def Accepted (env : Crates) (v : Value) : Prop :=
  ∃ event, Event.deserialize v = some event ∧ event.validate env.parseRfc3339 = .ok ()

variable {env : Crates} {v w : Value}

theorem Accepted.explicit_ne_nil (h : Accepted env v) {parts : List String}
    (hcontent : content v = .explicit parts) : parts ≠ [] := by
  obtain ⟨event, hread, hvalid⟩ := h
  have hparts : explicitParts v = some parts := by
    unfold content at hcontent
    split at hcontent
    · next found hfound =>
      cases hcontent
      exact hfound
    · cases hcontent
  cases v with
  | object fields =>
    have hne := (validate_ok hvalid).2
    have hfingerprint := (read_object hread).2 hne
    rw [explicitParts_eq, Value.get, hfingerprint] at hparts
    rintro rfl
    exact hne hparts
  | _ => cases hparts

theorem asUnsigned_some {bits n : Nat} (h : Value.asUnsigned bits v = some n) :
    v = .number (.int n) := by
  cases v with
  | number number =>
    cases number with
    | int m =>
      rw [Value.asUnsigned] at h
      split at h
      · next hrange =>
        cases h
        rw [Int.toNat_of_nonneg hrange.1]
      · cases h
    | float text => cases h
  | _ => cases h

/-- An event without entries was sent as an array, with its version in front. -/
theorem Accepted.fallback (h : Accepted env v)
    (hnumber : env.valueToString (.number (.int 1)) = "1")
    (hcontent : content v = .derived []) : ∃ rest, (hashed env v).toList = '1' :: rest := by
  obtain ⟨event, hread, hvalid⟩ := h
  have hgather : gather v = [] := by
    unfold content at hcontent
    split at hcontent
    · cases hcontent
    · exact Content.derived.inj hcontent
  rw [hashed, hcontent]
  cases v with
  | object fields =>
    have hmessage : ((Value.object fields).get "message").bind Value.asStr = some event.message :=
      (read_object hread).1
    have hne := collect_ne_nil hmessage
    rw [collect_eq, hgather] at hne
    exact absurd rfl hne
  | array items =>
    rw [Event.deserialize, Value.asRecord] at hread
    split at hread
    · obtain ⟨hversion, hid, -⟩ := Event.read_some hread
      cases items with
      | nil => cases hid
      | cons first items =>
        have hfirst : first = .number (.int 1) := by
          have := asUnsigned_some (v := first) hversion
          rwa [(validate_ok hvalid).1] at this
        dsimp only
        rw [canonical, canonicalItems, hfirst, canonical, hnumber, String.toList_intercalate]
        cases canonicalItems env items with
        | nil => exact ⟨[], by simp⟩
        | cons text texts =>
          rw [List.map_cons, List.map_cons, List.intercalate_cons_cons]
          exact ⟨_, rfl⟩
    · cases hread
  | _ => cases hread

def tags : List String := ["exception_type", "error_type", "type", "message", "frame"]

theorem Entry.render_tagged (entry : Entry) :
    ∃ tag ∈ tags, ∃ rest, entry.render.toList = tag.toList ++ ':' :: rest := by
  cases entry with
  | text key value =>
    refine ⟨key.name, ?_, _, toList_text key value⟩
    cases key <;> decide
  | frame file function => exact ⟨"frame", by decide, _, toList_frame file function⟩

theorem toList_explicit (parts : List String) :
    ("explicit\n" ++ "\n".intercalate parts).toList =
      "explicit".toList ++ '\n' :: ['\n'].intercalate (parts.map String.toList) := by
  rw [String.toList_append, String.toList_intercalate]
  rfl

theorem hashed_explicit {parts : List String} (h : content v = .explicit parts) :
    (hashed env v).toList =
      "explicit".toList ++
        '\n' :: ['\n'].intercalate ((Content.explicit parts).texts.map String.toList) := by
  rw [hashed, h]
  exact toList_explicit parts

theorem hashed_derived {entries : List Entry} (h : content v = .derived entries)
    (hne : entries ≠ []) : (hashed env v).toList =
      ['\n'].intercalate ((Content.derived entries).texts.map String.toList) := by
  rw [hashed, h]
  cases entries with
  | nil => exact absurd rfl hne
  | cons entry entries => exact String.toList_intercalate

/-- A derived text starts with a tag and a colon. -/
theorem hashed_tagged {entries : List Entry} (h : content v = .derived entries)
    (hne : entries ≠ []) :
    ∃ tag ∈ tags, ∃ rest, (hashed env v).toList = tag.toList ++ ':' :: rest := by
  rw [hashed_derived h hne]
  cases entries with
  | nil => exact absurd rfl hne
  | cons entry entries =>
    obtain ⟨tag, htag, rest, hrender⟩ := entry.render_tagged
    refine ⟨tag, htag, ?_⟩
    cases entries with
    | nil => exact ⟨rest, by simpa [Content.texts] using hrender⟩
    | cons next entries =>
      simp only [Content.texts, List.map_cons, List.intercalate_cons_cons, hrender,
        List.append_assoc, List.cons_append]
      exact ⟨_, rfl⟩

theorem explicit_ne_tagged {tag : String} (htag : tag ∈ tags) (a b : List Char) :
    "explicit".toList ++ '\n' :: a ≠ tag.toList ++ ':' :: b := by
  simp only [tags, List.mem_cons, List.not_mem_nil, or_false] at htag
  rcases htag with rfl | rfl | rfl | rfl | rfl <;> simp

theorem digit_ne_tagged {tag : String} (htag : tag ∈ tags) (a b : List Char) :
    '1' :: a ≠ tag.toList ++ ':' :: b := by
  simp only [tags, List.mem_cons, List.not_mem_nil, or_false] at htag
  rcases htag with rfl | rfl | rfl | rfl | rfl <;> simp

/-- Explicit components are never taken for derived entries. -/
theorem explicit_ne_derived (hw : Accepted env w)
    (hnumber : env.valueToString (.number (.int 1)) = "1") {parts : List String}
    {entries : List Entry} (hcv : content v = .explicit parts)
    (hcw : content w = .derived entries) : hashed env v ≠ hashed env w := by
  intro heq
  have hlist := congrArg String.toList heq
  rw [hashed_explicit hcv] at hlist
  cases entries with
  | nil =>
    obtain ⟨rest, hrest⟩ := hw.fallback hnumber hcw
    rw [hrest] at hlist
    simp at hlist
  | cons entry entries =>
    obtain ⟨tag, htag, rest, hrest⟩ :
        ∃ tag ∈ tags, ∃ rest, (hashed env w).toList = tag.toList ++ ':' :: rest :=
      hashed_tagged hcw (List.cons_ne_nil _ _)
    exact explicit_ne_tagged htag _ _ (hlist.trans hrest)

theorem derived_nil_ne (hv : Accepted env v) (hnumber : env.valueToString (.number (.int 1)) = "1")
    {entries : List Entry} (hcv : content v = .derived []) (hcw : content w = .derived entries)
    (hne : entries ≠ []) : hashed env v ≠ hashed env w := by
  intro heq
  have hlist := congrArg String.toList heq
  obtain ⟨rest, hrest⟩ := hv.fallback hnumber hcv
  obtain ⟨tag, htag, rest', htagged⟩ :
      ∃ tag ∈ tags, ∃ rest, (hashed env w).toList = tag.toList ++ ':' :: rest :=
    hashed_tagged hcw hne
  rw [hrest, htagged] at hlist
  exact digit_ne_tagged htag _ _ hlist

/-- Texts that are hashed alike have the same lines. -/
theorem sameLines_of_hashed (hv : Accepted env v) (hw : Accepted env w)
    (hnumber : env.valueToString (.number (.int 1)) = "1") (h : hashed env v = hashed env w) :
    SameLines (content v) (content w) := by
  cases hcv : content v with
  | explicit parts =>
    cases hcw : content w with
    | explicit others =>
      have hlist := congrArg String.toList h
      rw [hashed_explicit hcv, hashed_explicit hcw, List.append_cancel_left_eq,
        List.cons_inj_right] at hlist
      refine (Lines.intercalate_eq_iff ?_ ?_).mp hlist
      · simpa [Content.texts] using hv.explicit_ne_nil hcv
      · simpa [Content.texts] using hw.explicit_ne_nil hcw
    | derived others => exact absurd h (explicit_ne_derived hw hnumber hcv hcw)
  | derived entries =>
    cases hcw : content w with
    | explicit others => exact absurd h.symm (explicit_ne_derived hv hnumber hcw hcv)
    | derived others =>
      by_cases hentries : entries = []
      · by_cases hothers : others = []
        · rw [hentries, hothers]
          rfl
        · exact absurd h (derived_nil_ne hv hnumber (hentries ▸ hcv) hcw hothers)
      · by_cases hothers : others = []
        · exact absurd h.symm (derived_nil_ne hw hnumber (hothers ▸ hcw) hcv hentries)
        · have hlist := congrArg String.toList h
          rw [hashed_derived hcv hentries, hashed_derived hcw hothers] at hlist
          refine (Lines.intercalate_eq_iff ?_ ?_).mp hlist
          · simpa [Content.texts] using hentries
          · simpa [Content.texts] using hothers

/-- An event that was sent as an object has entries. -/
theorem Accepted.entries {fields : List (String × Value)} (h : Accepted env (.object fields))
    {entries : List Entry} (hcontent : content (.object fields) = .derived entries) :
    entries ≠ [] := by
  obtain ⟨event, hread, -⟩ := h
  have hmessage : ((Value.object fields).get "message").bind Value.asStr = some event.message :=
    (read_object hread).1
  have hne := collect_ne_nil hmessage
  rw [collect_eq] at hne
  unfold content at hcontent
  split at hcontent
  · cases hcontent
  · rw [← Content.derived.inj hcontent]
    exact fun heq => hne (by rw [heq]; rfl)

theorem hashed_of_sameLines {a b : List (String × Value)} (ha : Accepted env (.object a))
    (hb : Accepted env (.object b))
    (h : SameLines (content (.object a)) (content (.object b))) :
    hashed env (.object a) = hashed env (.object b) := by
  apply String.toList_injective
  cases hca : content (.object a) with
  | explicit parts =>
    cases hcb : content (.object b) with
    | explicit others =>
      rw [hca, hcb] at h
      rw [hashed_explicit hca, hashed_explicit hcb]
      have htexts := (Lines.intercalate_eq_iff
        (by simpa [Content.texts] using ha.explicit_ne_nil hca)
        (by simpa [Content.texts] using hb.explicit_ne_nil hcb)).mpr h
      rw [htexts]
    | derived others =>
      rw [hca, hcb] at h
      cases h
  | derived entries =>
    cases hcb : content (.object b) with
    | explicit others =>
      rw [hca, hcb] at h
      cases h
    | derived others =>
      rw [hca, hcb] at h
      rw [hashed_derived hca (ha.entries hca), hashed_derived hcb (hb.entries hcb)]
      exact (Lines.intercalate_eq_iff (by simpa [Content.texts] using ha.entries hca)
        (by simpa [Content.texts] using hb.entries hcb)).mpr h

/-- The text that is hashed tells the lines of the content: two events are
hashed alike only if both are explicit or both derived, and line by line the
same, and events sent as objects are hashed alike whenever they are. Where no
text holds a newline and no file's name a colon, the content itself is told. -/
theorem hashed_separates (env : Crates) (hnumber : env.valueToString (.number (.int 1)) = "1")
    (v w : Value) (hv : Accepted env v) (hw : Accepted env w) :
    eventFingerprint env v = env.blake3Hex (hashed env v) ∧
    (hashed env v = hashed env w → SameLines (content v) (content w)) ∧
    (∀ a b, v = .object a → w = .object b → SameLines (content v) (content w) →
      hashed env v = hashed env w) ∧
    ((content v).Plain → (content w).Plain → hashed env v = hashed env w →
      content v = content w) := by
  refine ⟨eventFingerprint_eq env v, sameLines_of_hashed hv hw hnumber, ?_, fun hpv hpw heq =>
    (sameLines_of_hashed hv hw hnumber heq).eq_of_plain hpv hpw⟩
  rintro a b rfl rfl h
  exact hashed_of_sameLines hv hw h

namespace Sample

/-- An event as a tree, with more members between its id and its message. -/
def tree (message : String) (members : List (String × Value)) : Value :=
  .object ([("event_id", .string "e1")] ++ members ++
    [("message", .string message), ("timestamp", .string "2026-01-02T03:04:05Z")])

/-- An event with one stack frame. -/
def framed (message file function : String) : Value :=
  tree message [("stack_frames", .array [
    .object [("filename", .string file), ("function", .string function)]])]

def grouped (parts : List String) : Value :=
  tree "boom" [("fingerprint", .array (parts.map .string))]

def crates : Crates := { Zbierak.Sample.crates with
  valueToString := fun v => match v with
    | .number (.int n) => toString n
    | _ => "null" }

end Sample

/-- Two files, two groups. -/
theorem hashed_separates_files :
    hashed Sample.crates (Sample.framed "boom" "a.rs" "run") ≠
      hashed Sample.crates (Sample.framed "boom" "b.rs" "run") := by
  intro heq
  have hcontent := (hashed_separates Sample.crates rfl (Sample.framed "boom" "a.rs" "run")
    (Sample.framed "boom" "b.rs" "run") ⟨_, rfl, rfl⟩ ⟨_, rfl, rfl⟩).2.2.2
      (by decide) (by decide) heq
  exact absurd hcontent (by decide)

/-- Two accepted events that differ in what is hashed and have one fingerprint. -/
def Merges (env : Crates) (v w : Value) : Prop :=
  Accepted env v ∧ Accepted env w ∧ hashed env v = hashed env w ∧ content v ≠ content w

/-- A newline in a message, a colon in a file's name and a newline in an
explicit component each make two different events one group. -/
theorem hashed_merges :
    Merges Sample.crates (Sample.tree "boom\nframe:a.rs:run" [])
        (Sample.framed "boom" "a.rs" "run") ∧
      Merges Sample.crates (Sample.framed "boom" "a:b" "c") (Sample.framed "boom" "a" "b:c") ∧
      Merges Sample.crates (Sample.grouped ["a\nb"]) (Sample.grouped ["a", "b"]) :=
  ⟨⟨⟨_, rfl, rfl⟩, ⟨_, rfl, rfl⟩, by decide, by decide⟩,
    ⟨⟨_, rfl, rfl⟩, ⟨_, rfl, rfl⟩, by decide, by decide⟩,
    ⟨⟨_, rfl, rfl⟩, ⟨_, rfl, rfl⟩, by decide, by decide⟩⟩

end Zbierak.Flattening
