import Zbierak.Http
import Zbierak.Server

/-!
# Avatars and the copies of browsers

`serve_avatar` takes the digest of the stored image as its entity tag, so that a
browser can ask whether the copy it has is still good. However old the copy is,
it is confirmed exactly when it has the digest of the current image.
-/
namespace Zbierak.Avatars

open Server

/-- `trim_start_matches("W/")` -/
def trimWeak : List Char → List Char
  | 'W' :: '/' :: cs => trimWeak cs
  | cs => cs

/-- `trim_matches` of the double quote. -/
def trimQuotes (cs : List Char) : List Char :=
  ((cs.dropWhile (· == '"')).reverse.dropWhile (· == '"')).reverse

/-- What a candidate of `If-None-Match` names, weak or strong. -/
def candidateTag (candidate : String) : String :=
  String.ofList (trimQuotes (trimWeak (Text.trim candidate).toList))

inductive Response where
  | notModified
  | image (contentType etag : Option String) (bytes : Bytes)
  deriving DecidableEq, Repr

def avatar (db : Db) (userId : Int) : Option UserAvatar := db.userAvatars.find? fun a => a.userId = userId

def entityTag (sha256 : String) : String := "\"" ++ sha256 ++ "\""

def notModified (env : Crates) (ifNoneMatch : Option Bytes) (sha256 : String) : Bool :=
  match ifNoneMatch.bind env.headers.toStr with
  | none => false
  | some value => (Text.split ',' value).any fun candidate => candidateTag candidate = sha256

/-- What an operator is answered, whoever the user is. -/
def serveAvatar (env : Crates) (db : Db) (userId : Int) (ifNoneMatch : Option Bytes) : Except AppError Response :=
  match avatar db userId with
  | none => .error .notFound
  | some a =>
    if notModified env ifNoneMatch a.sha256 then .ok .notModified
    else .ok (.image (env.headers.fromStr a.contentType) (env.headers.fromStr (entityTag a.sha256)) a.bytes)

/-- A copy that some browser keeps. -/
structure Copy where
  userId : Int
  etag : String
  bytes : Bytes
  deriving DecidableEq, Repr

/-- The store, all copies there are, and what the last request showed. -/
structure World where
  db : Db
  copies : List Copy
  shown : Option Bytes

/-- A request names a copy of the browser, if it has one; a cache on the way may
make the tag a weak one. -/
inductive Label where
  | op (now : Int) (op : Op)
  | fetch (userId : Int) (copy : Option Nat) (weak : Bool)
  | evict (index : Nat)

def ifNoneMatch (weak : Bool) (copy : Copy) : Bytes :=
  Text.toUtf8 ((if weak then "W/" else "") ++ copy.etag)

/-- The copy of the user's avatar that is asked about. -/
def World.asked (w : World) (userId : Int) (index : Option Nat) : Option Copy :=
  (index.bind fun index => w.copies[index]?).filter fun copy => copy.userId = userId

/-- The browser shows its copy when that is confirmed, and else the image it gets. -/
def World.fetched (env : Crates) (w : World) (userId : Int) (copy : Option Copy) (weak : Bool) : World :=
  match serveAvatar env w.db userId (copy.map (ifNoneMatch weak)) with
  | .error _ => { w with shown := none }
  | .ok .notModified => { w with shown := copy.map Copy.bytes }
  | .ok (.image _ etag bytes) => { w with
      copies := w.copies ++ (etag.map fun etag => ⟨userId, etag, bytes⟩).toList
      shown := some bytes }

def step (cfg : Setup) (w : World) : Label → Option World
  | .op now op => some { w with db := (exec cfg now w.db op).2 }
  | .fetch userId index weak => some (w.fetched cfg.env userId (w.asked userId index) weak)
  | .evict index => some { w with copies := w.copies.eraseIdx index }

section Tags

/-- A digest in hexadecimal digits. -/
def IsHex (s : String) : Prop := ∀ c ∈ s.toList, c ∈ "0123456789abcdef".toList

theorem hex_char {c : Char} (h : c ∈ "0123456789abcdef".toList) :
    Http.isTokenChar c = true ∧ c ≠ ',' ∧ c ≠ '"' := by
  have hdigits : ("0123456789abcdef".toList.all fun c =>
      Http.isTokenChar c && c != ',' && c != '"') = true := by decide +kernel
  simpa [and_assoc] using List.all_eq_true.mp hdigits c h

theorem trimQuotes_quoted {cs : List Char} (h : ∀ c ∈ cs, c ≠ '"') :
    trimQuotes ('"' :: (cs ++ ['"'])) = cs := by
  have hdrop : ∀ ds : List Char, (∀ c ∈ ds, c ≠ '"') → ds.dropWhile (· == '"') = ds := by
    intro ds hds
    cases ds with
    | nil => rfl
    | cons d ds => exact List.dropWhile_cons_of_neg (by simpa using hds d (List.mem_cons_self ..))
  rw [trimQuotes, List.dropWhile_cons_of_pos (by decide)]
  cases cs with
  | nil => rfl
  | cons c cs =>
    rw [List.cons_append, List.dropWhile_cons_of_neg (by simpa using h c (List.mem_cons_self ..)),
      ← List.cons_append, List.reverse_append, List.reverse_singleton, List.singleton_append,
      List.dropWhile_cons_of_pos (by decide), hdrop _ fun d hd => h d (List.mem_reverse.mp hd),
      List.reverse_reverse]

theorem trimWeak_tag (weak : Bool) (cs : List Char) :
    trimWeak ((if weak then ['W', '/'] else []) ++ '"' :: cs) = '"' :: cs := by
  cases weak with
  | false => rfl
  | true => rfl

theorem sent_toList (weak : Bool) (sha256 : String) :
    ((if weak then "W/" else "") ++ entityTag sha256).toList =
      (if weak then ['W', '/'] else []) ++ '"' :: (sha256.toList ++ ['"']) := by
  cases weak <;> simp [entityTag]

theorem tokenChar_sent (weak : Bool) {sha256 : String} (h : IsHex sha256) :
    ∀ c ∈ ((if weak then "W/" else "") ++ entityTag sha256).toList,
      Http.isTokenChar c = true ∧ c ≠ ',' := by
  intro c hc
  rw [sent_toList] at hc
  rcases List.mem_append.mp hc with hc | hc
  · cases weak with
    | false => cases hc
    | true =>
      rcases List.mem_pair.mp hc with rfl | rfl <;> decide
  · rcases List.mem_cons.mp hc with rfl | hc
    · decide
    · rcases List.mem_append.mp hc with hc | hc
      · exact ⟨(hex_char (h c hc)).1, (hex_char (h c hc)).2.1⟩
      · obtain rfl := List.mem_singleton.mp hc
        decide

/-- The tag that comes back names the digest it was made of. -/
theorem candidateTag_sent (weak : Bool) {sha256 : String} (h : IsHex sha256) :
    candidateTag ((if weak then "W/" else "") ++ entityTag sha256) = sha256 := by
  have htrim := Text.trim_of_no_whitespace fun c hc =>
    Http.not_whitespace_of_tokenChar (tokenChar_sent weak h c hc).1
  rw [candidateTag, htrim, sent_toList, trimWeak_tag,
    trimQuotes_quoted fun c hc => (hex_char (h c hc)).2.2, String.ofList_toList]

theorem notModified_sent (env : Crates) (weak : Bool) {copy : Copy} {sha256 : String} (h : IsHex sha256)
    (hetag : copy.etag = entityTag sha256) (current : String) :
    notModified env (some (ifNoneMatch weak copy)) current = decide (sha256 = current) := by
  have hchars := tokenChar_sent weak h
  have htext : env.headers.toStr (ifNoneMatch weak copy) =
      some ((if weak then "W/" else "") ++ entityTag sha256) := by
    refine (env.headers.toStr_eq_some _ _).mpr ⟨by rw [ifNoneMatch, hetag], ?_⟩
    rw [ifNoneMatch, hetag]
    exact Http.visible_text fun c hc => .inl (hchars c hc).1
  have hsplit : Text.split ',' ((if weak then "W/" else "") ++ entityTag sha256) =
      [(if weak then "W/" else "") ++ entityTag sha256] := by
    rw [Text.split, Text.splitList_of_not_mem fun hc => (hchars _ hc).2 rfl, List.map_singleton,
      String.ofList_toList]
  simp only [notModified, Option.bind_some, htext, hsplit, List.any_cons, List.any_nil, Bool.or_false,
    candidateTag_sent weak h]

theorem fromStr_entityTag (env : Crates) {sha256 : String} (h : IsHex sha256) :
    env.headers.fromStr (entityTag sha256) = some (entityTag sha256) := by
  have hchars := tokenChar_sent false h
  rw [if_neg (by decide), String.empty_append] at hchars
  exact env.headers.fromStr_visible _ (Http.visible_text fun c hc => .inl (hchars c hc).1)

end Tags

section Stored

variable {cfg : Setup} {db db' : Db}

/-- An image that goes with its digest. -/
def Normalized (env : Crates) (a : UserAvatar) : Prop :=
  a.sha256 = env.sha256Hex a.bytes ∧ a.contentType = "image/png"

def Stored (env : Crates) (db : Db) : Prop := ∀ a ∈ db.userAvatars, Normalized env a

theorem stored_upload {env : Crates} {rows : List UserAvatar} {targetId : Int} {row : UserAvatar}
    (hrow : Normalized env row) (h : ∀ a ∈ rows, Normalized env a) :
    ∀ a ∈ Upsert.upsert (fun a => a.userId = targetId) (fun _ => row) row rows, Normalized env a := by
  unfold Upsert.upsert
  split
  · intro a ha
    obtain ⟨b, hb, rfl⟩ := List.mem_map.mp ha
    split
    · exact hrow
    · exact h b hb
  · intro a ha
    rcases List.mem_append.mp ha with ha | ha
    · exact h a ha
    · obtain rfl := List.mem_singleton.mp ha
      exact hrow

theorem stored_audited {env : Crates} {fault : Option AppError} {row : AuditRow} {write : Tx Unit}
    (htx : audited fault row write db = .ok (db', ()))
    (hwrite : ∀ changed, write db = .ok (changed, ()) → Stored env changed) : Stored env db' := by
  obtain ⟨-, changed, hchanged, rfl⟩ := audited_ok htx
  exact hwrite changed hchanged

theorem stored_account {now : Int} {request : Settings.Request} (h : Stored cfg.env db)
    (htx : Settings.exec cfg.env none now request db = .ok (db', ())) : Stored cfg.env db' := by
  cases request with
  | logout cookie =>
    cases htx
    unfold Settings.destroySession
    split <;> exact h
  | useApiToken bearer =>
    simp only [Settings.exec, Settings.apiTokenUser] at htx
    split at htx
    · cases htx
    · split at htx <;> cases htx
      exact h
  | createApiToken userId name token =>
    simp only [Settings.exec, Settings.createApiTokenTx] at htx
    refine stored_audited htx fun changed hchanged => ?_
    split at hchanged <;> cases hchanged
    exact h
  | uploadAvatar userId targetId png =>
    simp only [Settings.exec, Settings.uploadAvatarTx] at htx
    refine stored_audited htx fun changed hchanged => ?_
    cases hchanged
    exact stored_upload ⟨rfl, rfl⟩ h
  | deleteAvatar userId targetId =>
    simp only [Settings.exec, Settings.deleteAvatarTx] at htx
    refine stored_audited htx fun changed hchanged => ?_
    cases hchanged
    exact fun a ha => h a (List.mem_of_mem_filter ha)
  | revokeApiToken | changePassword | updateProfile | revokeOtherSessions | revokeSession =>
    simp only [Settings.exec, Settings.revokeApiTokenTx, Settings.changePasswordTx,
      Settings.updateProfileTx, Settings.revokeOtherSessionsTx, Settings.revokeSessionTx] at htx
    refine stored_audited htx fun changed hchanged => ?_
    cases hchanged
    exact h

theorem exec_stored (cfg : Setup) (now : Int) {op : Op} (h : Stored cfg.env db) :
    Stored cfg.env (exec cfg now db op).2 := by
  by_cases hwrites : op.writes.contains .userAvatars = false
  · have hsame : (exec cfg now db op).2.userAvatars = db.userAvatars :=
      exec_frame cfg now db op .userAvatars hwrites
    rwa [Stored, hsame]
  · cases op with
    | worker write => exact absurd (by cases write <;> rfl) hwrites
    | request r =>
      cases r with
      | account request => exact commit_snd (Stored cfg.env) h fun db' _ htx => stored_account h htx
      | _ => exact absurd rfl hwrites

end Stored

section Runs

variable {cfg : Setup} {w w' : World}

/-- Every image in the store and every copy of one goes with its digest. -/
structure Inv (env : Crates) (w : World) : Prop where
  stored : Stored env w.db
  copies : ∀ copy ∈ w.copies, copy.etag = entityTag (env.sha256Hex copy.bytes)

theorem avatar_mem {db : Db} {userId : Int} {a : UserAvatar} (h : avatar db userId = some a) :
    a ∈ db.userAvatars := List.mem_of_find?_eq_some h

theorem asked_mem {userId : Int} {index : Option Nat} {copy : Copy}
    (h : w.asked userId index = some copy) : copy ∈ w.copies := by
  obtain ⟨hfound, -⟩ := Option.filter_eq_some_iff.mp h
  obtain ⟨i, -, hi⟩ := Option.bind_eq_some_iff.mp hfound
  exact List.mem_of_getElem? hi

/-- The answer about a copy: it is confirmed, or the image comes with its digest. -/
theorem serveAvatar_copy (hhex : ∀ bytes, IsHex (cfg.env.sha256Hex bytes)) (h : Inv cfg.env w)
    {userId : Int} {a : UserAvatar} (ha : avatar w.db userId = some a) (weak : Bool)
    {copy : Option Copy} (hcopy : ∀ c ∈ copy, c ∈ w.copies) :
    serveAvatar cfg.env w.db userId (copy.map (ifNoneMatch weak)) =
      if ∃ c ∈ copy, cfg.env.sha256Hex c.bytes = cfg.env.sha256Hex a.bytes then .ok .notModified
      else .ok (.image (some "image/png") (some (entityTag (cfg.env.sha256Hex a.bytes))) a.bytes) := by
  obtain ⟨hsha, htype⟩ := h.stored a (avatar_mem ha)
  have hpng : cfg.env.headers.fromStr "image/png" = some "image/png" :=
    cfg.env.headers.fromStr_visible _ (by decide +kernel)
  rw [serveAvatar, ha]
  dsimp only
  rw [hsha, htype, hpng, fromStr_entityTag cfg.env (hhex a.bytes)]
  cases copy with
  | none => simp [notModified]
  | some c =>
    rw [Option.map_some, notModified_sent cfg.env weak (hhex c.bytes) (h.copies c (hcopy c rfl))]
    simp

theorem fetched_eq (hhex : ∀ bytes, IsHex (cfg.env.sha256Hex bytes)) (h : Inv cfg.env w)
    {userId : Int} {a : UserAvatar} (ha : avatar w.db userId = some a) (weak : Bool)
    {copy : Option Copy} (hcopy : ∀ c ∈ copy, c ∈ w.copies) :
    w.fetched cfg.env userId copy weak =
      if ∃ c ∈ copy, cfg.env.sha256Hex c.bytes = cfg.env.sha256Hex a.bytes then
        { w with shown := copy.map Copy.bytes }
      else { w with
        copies := w.copies ++ [⟨userId, entityTag (cfg.env.sha256Hex a.bytes), a.bytes⟩]
        shown := some a.bytes } := by
  rw [World.fetched, serveAvatar_copy hhex h ha weak hcopy]
  by_cases hgood : ∃ c ∈ copy, cfg.env.sha256Hex c.bytes = cfg.env.sha256Hex a.bytes
  · rw [if_pos hgood, if_pos hgood]
  · rw [if_neg hgood, if_neg hgood]
    rfl

theorem fetched_none {userId : Int} (ha : avatar w.db userId = none) (copy : Option Copy) (weak : Bool) :
    w.fetched cfg.env userId copy weak = { w with shown := none } := by
  simp only [World.fetched, serveAvatar, ha]

theorem inv_fetched (hhex : ∀ bytes, IsHex (cfg.env.sha256Hex bytes)) (h : Inv cfg.env w) (userId : Int)
    (index : Option Nat) (weak : Bool) : Inv cfg.env (w.fetched cfg.env userId (w.asked userId index) weak) := by
  cases ha : avatar w.db userId with
  | none =>
    rw [fetched_none ha]
    exact ⟨h.stored, h.copies⟩
  | some a =>
    rw [fetched_eq hhex h ha weak fun c hc => asked_mem hc]
    split
    · exact ⟨h.stored, h.copies⟩
    · refine ⟨h.stored, fun c hc => ?_⟩
      rcases List.mem_append.mp hc with hc | hc
      · exact h.copies c hc
      · obtain rfl := List.mem_singleton.mp hc
        rfl

theorem inv_step (hhex : ∀ bytes, IsHex (cfg.env.sha256Hex bytes)) {label : Label} (h : Inv cfg.env w)
    (hstep : step cfg w label = some w') : Inv cfg.env w' := by
  cases label with
  | op now op =>
    cases hstep
    exact ⟨exec_stored cfg now h.stored, h.copies⟩
  | fetch userId index weak =>
    cases hstep
    exact inv_fetched hhex h userId index weak
  | evict index =>
    cases hstep
    exact ⟨h.stored, fun c hc => h.copies c (List.mem_of_mem_eraseIdx hc)⟩

/-- Whatever became of the avatars since a browser got its copy, asking about it
shows the current image, or one with its digest, and only a copy of another
digest makes the service send the image again. -/
theorem fetched_current (hhex : ∀ bytes, IsHex (cfg.env.sha256Hex bytes)) {labels : List Label}
    (hrun : Runs.run (step cfg) labels ⟨.empty, [], none⟩ = some w) (userId : Int) (index : Option Nat)
    (weak : Bool) :
    (avatar w.db userId = none ∧ (w.fetched cfg.env userId (w.asked userId index) weak).shown = none) ∨
      ∃ a bytes, avatar w.db userId = some a ∧
        (w.fetched cfg.env userId (w.asked userId index) weak).shown = some bytes ∧
        cfg.env.sha256Hex bytes = cfg.env.sha256Hex a.bytes ∧
        ((w.fetched cfg.env userId (w.asked userId index) weak).copies = w.copies ↔
          ∃ c ∈ w.asked userId index, cfg.env.sha256Hex c.bytes = cfg.env.sha256Hex a.bytes) := by
  have hinv : Inv cfg.env w := by
    refine Runs.run_invariant (fun _ _ _ h hstep => inv_step hhex h hstep) hrun ⟨?_, ?_⟩
    · exact fun a ha => (List.not_mem_nil ha).elim
    · exact fun c hc => (List.not_mem_nil hc).elim
  cases ha : avatar w.db userId with
  | none => exact .inl ⟨rfl, by rw [fetched_none ha]⟩
  | some a =>
    refine .inr ?_
    rw [fetched_eq hhex hinv ha weak fun c hc => asked_mem hc]
    by_cases hgood : ∃ c ∈ w.asked userId index, cfg.env.sha256Hex c.bytes = cfg.env.sha256Hex a.bytes
    · obtain ⟨c, hc, hsame⟩ := hgood
      have hasked : w.asked userId index = some c := hc
      rw [if_pos ⟨c, hc, hsame⟩]
      exact ⟨a, c.bytes, rfl, by rw [hasked]; rfl, hsame, iff_of_true rfl ⟨c, hc, hsame⟩⟩
    · rw [if_neg hgood]
      exact ⟨a, a.bytes, rfl, rfl, rfl, iff_of_false (by simp) hgood⟩

theorem isHex_of_all {s : String}
    (h : (s.toList.all fun c => "0123456789abcdef".toList.contains c) = true) : IsHex s :=
  fun c hc => by simpa using List.all_eq_true.mp h c hc

theorem isHex_sample (bytes : Bytes) : IsHex (Zbierak.Sample.crates.sha256Hex bytes) := by
  simp only [Zbierak.Sample.crates]
  split_ifs <;> exact isHex_of_all (by decide +kernel)

/-- An avatar that a browser has a copy of is replaced. -/
def Sample.labels : List Label :=
  [.op 0 (.request (.account (.uploadAvatar 1 1 (Zbierak.Sample.eventBody "m")))), .fetch 1 none false,
    .op 1 (.request (.account (.uploadAvatar 1 1 (Zbierak.Sample.eventBody "n"))))]

def Sample.replaced : World :=
  (Runs.run (step ⟨Zbierak.Sample.crates, none⟩) Sample.labels ⟨.empty, [], none⟩).get (by rfl)

theorem fetched_current_replaced :
    (avatar Sample.replaced.db 1 = none ∧
      (Sample.replaced.fetched Zbierak.Sample.crates 1 (Sample.replaced.asked 1 (some 0)) true).shown = none) ∨
      ∃ a bytes, avatar Sample.replaced.db 1 = some a ∧
        (Sample.replaced.fetched Zbierak.Sample.crates 1 (Sample.replaced.asked 1 (some 0)) true).shown = some bytes ∧
        Zbierak.Sample.crates.sha256Hex bytes = Zbierak.Sample.crates.sha256Hex a.bytes ∧
        ((Sample.replaced.fetched Zbierak.Sample.crates 1 (Sample.replaced.asked 1 (some 0)) true).copies =
          Sample.replaced.copies ↔ ∃ c ∈ Sample.replaced.asked 1 (some 0),
            Zbierak.Sample.crates.sha256Hex c.bytes = Zbierak.Sample.crates.sha256Hex a.bytes) :=
  @fetched_current ⟨Zbierak.Sample.crates, none⟩ Sample.replaced isHex_sample Sample.labels
    (Option.some_get _).symm 1 (some 0) true

end Runs

end Zbierak.Avatars
