import Zbierak.Directory
import Zbierak.IssueApi

/-!
# The life of a comment

A request about a comment checks its input and the role of its user, and later
runs one transaction; other requests commit in between. A comment is created
once, edited while it lives, and removed at most once. Its timeline has one entry
for each of these.
-/
namespace Zbierak.Comments

open Auth (membershipRole)
open Issues IssueApi

/-- The entry points, three for API clients and three for browsers. -/
inductive Request where
  | createComment (userId : Int) (slug : String) (issueId : Int) (body : String)
  | addComment (session : Auth.Session) (slug : String) (issueId : Int) (form : CommentForm)
  | updateComment (userId : Int) (slug : String) (issueId commentId : Int) (body : String)
  | editCommentForm (session : Auth.Session) (slug : String) (issueId commentId : Int)
      (form : CommentForm)
  | deleteComment (userId : Int) (slug : String) (issueId commentId : Int)
  | deleteCommentForm (session : Auth.Session) (slug : String) (issueId commentId : Int)
      (csrfToken : String)

def handle (now : Int) (db : Db) : Request → Except AppError Response × Db
  | .createComment userId slug issueId body => createComment now db userId slug issueId body
  | .addComment session slug issueId form => addComment now db session slug issueId form
  | .updateComment userId slug issueId commentId body =>
    updateComment now db userId slug issueId commentId body
  | .editCommentForm session slug issueId commentId form =>
    editCommentForm now db session slug issueId commentId form
  | .deleteComment userId slug issueId commentId => deleteComment now db userId slug issueId commentId
  | .deleteCommentForm session slug issueId commentId csrfToken =>
    deleteCommentForm now db session slug issueId commentId csrfToken

inductive Action where
  | create (body : String)
  | edit (commentId : Int) (body : String)
  | delete (commentId : Int)
  deriving DecidableEq, Repr

/-- The comment that is there already. -/
def Action.comment? : Action → Option Int
  | .create _ => none
  | .edit commentId _ | .delete commentId => some commentId

def Request.comment? : Request → Option Int
  | .createComment _ _ _ _ | .addComment _ _ _ _ => none
  | .updateComment _ _ _ commentId _ | .editCommentForm _ _ _ commentId _
  | .deleteComment _ _ _ commentId | .deleteCommentForm _ _ _ commentId _ => some commentId

/-- A request that passed its checks. A browser is sent to the issue page of
the slug afterwards. -/
structure Authorized where
  projectId : Int
  userId : Int
  issueId : Int
  action : Action
  page : Option String
  deriving DecidableEq, Repr

/-- The checks of a request, in the order its handler makes them. -/
def authorize (db : Db) : Request → Except AppError Authorized
  | .createComment userId slug issueId body => do
    let body ← validateCommentBody body
    let projectId ← Auth.requireProjectRole db userId slug .developer
    .ok ⟨projectId, userId, issueId, .create body, none⟩
  | .addComment session slug issueId form => do
    Auth.checkCsrf session form.csrfToken
    let body ← Forms.requiredText "comment" form.body 10000
    let projectId ← Auth.requireProjectRole db session.userId slug .developer
    .ok ⟨projectId, session.userId, issueId, .create body, some slug⟩
  | .updateComment userId slug issueId commentId body => do
    let body ← validateCommentBody body
    let projectId ← Auth.requireProjectRole db userId slug .developer
    .ok ⟨projectId, userId, issueId, .edit commentId body, none⟩
  | .editCommentForm session slug issueId commentId form => do
    Auth.checkCsrf session form.csrfToken
    let body ← Forms.requiredText "comment" form.body 10000
    let projectId ← Auth.requireProjectRole db session.userId slug .developer
    .ok ⟨projectId, session.userId, issueId, .edit commentId body, some slug⟩
  | .deleteComment userId slug issueId commentId => do
    let projectId ← Auth.requireProjectRole db userId slug .developer
    .ok ⟨projectId, userId, issueId, .delete commentId, none⟩
  | .deleteCommentForm session slug issueId commentId csrfToken => do
    Auth.checkCsrf session csrfToken
    let projectId ← Auth.requireProjectRole db session.userId slug .developer
    .ok ⟨projectId, session.userId, issueId, .delete commentId, some slug⟩

/-- Run a transaction for the value `b`. -/
def returning {α β : Type} (tx : Tx α) (b : β) : Tx β := fun db => do
  let (db, _) ← tx db
  .ok (db, b)

/-- The transaction, which returns the id of the comment. -/
def Authorized.write (a : Authorized) (now : Int) : Tx Int :=
  match a.action with
  | .create body => insertCommentTx a.projectId a.userId a.issueId body now
  | .edit commentId body =>
    returning (updateCommentTx a.projectId a.userId a.issueId commentId body now) commentId
  | .delete commentId =>
    returning (deleteCommentTx a.projectId a.userId a.issueId commentId now) commentId

def Authorized.answer (a : Authorized) (db : Db) (commentId : Int) : Except AppError Response :=
  match a.page, a.action with
  | some slug, _ => .ok (issuePage slug a.issueId)
  | none, .create _ => (fetchCommentJson db commentId).map (.comment 201)
  | none, .edit _ _ => (fetchCommentJson db commentId).map (.comment 200)
  | none, .delete _ => .ok .noContent

def Authorized.finish (a : Authorized) (now : Int) (db : Db) : Except AppError Response × Db :=
  transact db (a.write now) a.answer

theorem checked_bind {α β : Type} (db : Db) (x : Except AppError α) (f : α → Except AppError β)
    (next : β → Except AppError Response × Db) :
    checked db (x >>= f) next = checked db x fun a => checked db (f a) next := by
  cases x <;> rfl

theorem checked_ok {α : Type} (db : Db) (a : α) (next : α → Except AppError Response × Db) :
    checked db (.ok a) next = next a := rfl

theorem returning_ok {α β : Type} {tx : Tx α} {b b' : β} {db db' : Db}
    (h : returning tx b db = .ok (db', b')) : b' = b ∧ ∃ a, tx db = .ok (db', a) := by
  obtain ⟨⟨changed, a⟩, htx, h⟩ := Except.bind_ok h
  cases h
  exact ⟨rfl, a, htx⟩

theorem returning_error {α β : Type} {tx : Tx α} {db : Db} {e : AppError} (b : β)
    (h : tx db = .error e) : returning tx b db = .error e := by
  simp only [returning, h, bind, Except.bind]

theorem transact_returning {α β : Type} (db : Db) (tx : Tx α) (b : β)
    (answer : Db → β → Except AppError Response) :
    transact db (returning tx b) answer = transact db tx fun db' _ => answer db' b := by
  cases h : tx db <;> simp only [transact, commit, returning, h, bind, Except.bind]

/-- A handler is its checks and then its transaction. -/
theorem handle_eq (now : Int) (db : Db) (request : Request) :
    handle now db request = checked db (authorize db request) fun a => a.finish now db := by
  cases request with
  | createComment | addComment =>
    simp only [handle, authorize, checked_bind, checked_ok]
    rfl
  | updateComment | editCommentForm | deleteComment | deleteCommentForm =>
    simp only [handle, authorize, checked_bind, checked_ok, Authorized.finish, Authorized.write,
      transact_returning]
    rfl

/-- The store, the requests whose transaction is still to run, and what was done
to which comment so far. -/
structure World where
  db : Db
  authorized : List Authorized
  done : List (ActivityKind × Int)

def Action.kind : Action → ActivityKind
  | .create _ => .comment
  | .edit _ _ => .commentEdited
  | .delete _ => .commentDeleted

/-- The entry for a transaction that committed. -/
def Authorized.entry (a : Authorized) (now : Int) (db : Db) : List (ActivityKind × Int) :=
  match a.write now db with
  | .ok (_, commentId) => [(a.action.kind, commentId)]
  | .error _ => []

inductive Label where
  | check (request : Request)
  | finish (a : Authorized) (now : Int)
  | other (now : Int) (op : Server.Op)

/-- Transactions that run as `finish` here. -/
def aboutComment : Server.Op → Bool
  | .request (.insertComment _ _ _ _) | .request (.updateComment _ _ _ _ _)
  | .request (.deleteComment _ _ _ _) => true
  | _ => false

/-- Anything else may happen in between, except that nobody's role changes while
a request about a comment is under way. -/
def step (cfg : Server.Setup) (w : World) : Label → Option World
  | .check request =>
    match authorize w.db request with
    | .ok a => some { w with authorized := a :: w.authorized }
    | .error _ => some w
  | .finish a now =>
    if a ∈ w.authorized then
      some {
        db := (a.finish now w.db).2
        authorized := w.authorized.erase a
        done := w.done ++ a.entry now w.db }
    else none
  | .other now op =>
    let db := (Server.exec cfg now w.db op).2
    if aboutComment op = false ∧ (w.authorized = [] ∨ db.memberships = w.db.memberships) then
      some { w with db }
    else none

def fresh : World := ⟨Db.empty, [], []⟩

/-- Whether the details of a timeline entry name the comment. -/
def names (commentId : Int) (a : Activity) : Bool :=
  match a.details.get "comment_id" with
  | some (.number (.int id)) => id = commentId
  | _ => false

/-- How many timeline entries of the kind the comment has. -/
def logged (db : Db) (kind : ActivityKind) (commentId : Int) : Nat :=
  db.activity.rows.countP fun r => r.2.kind = kind ∧ names commentId r.2

/-- The kinds of the timeline that belong to comments. -/
def ofComment : ActivityKind → Bool
  | .comment | .commentEdited | .commentDeleted => true
  | .status | .regression | .tags => false

/-- The timeline shows what was done: each comment was created once, and
removed once if it is a tombstone and never otherwise. -/
structure Bookkept (w : World) : Prop where
  logged : ∀ kind commentId, ofComment kind = true →
    logged w.db kind commentId = w.done.count (kind, commentId)
  created : ∀ commentId, w.done.count (.comment, commentId) =
    if (w.db.comments.get? commentId).isSome then 1 else 0
  deleted : ∀ commentId, w.done.count (.commentDeleted, commentId) =
    if ((w.db.comments.get? commentId).bind Comment.deletedAt).isSome then 1 else 0

/-- What a committed transaction did, and the policy it met. -/
inductive Written (a : Authorized) (now : Int) (db : Db) : Db → Int → Prop where
  | created (body : String) (haction : a.action = .create body) :
      Written a now db { db with
        comments := db.comments.insert ⟨a.issueId, a.userId, body, now, none, none, none⟩
        activity := db.activity.insert ⟨a.issueId, some a.userId, .comment,
          .object [("body", .string body), ("comment_id", .number (.int db.comments.nextId))], now⟩ }
        db.comments.nextId
  | modified (commentId : Int) (change : Comment → Comment) (c : Comment) (role : ProjectRole)
      (haction : a.action.comment? = some commentId)
      (hkind : a.action.kind = .commentEdited ∨ a.action.kind = .commentDeleted)
      (hchange : ∀ c, (change c).deletedAt =
        if a.action.kind = .commentDeleted then some now else c.deletedAt)
      (hissue : (issueIn db a.projectId a.issueId).isSome)
      (hget : db.comments.get? commentId = some c) (hcomment : c.issueId = a.issueId)
      (hlive : c.deletedAt = none) (hrole : membershipRole db a.projectId a.userId = some role)
      (hallowed : canModifyComment role a.userId c.userId = true) :
      Written a now db { db with
        comments := db.comments.update (fun id c => id = commentId ∧ c.deletedAt = none) change
        activity := db.activity.insert ⟨a.issueId, some a.userId, a.action.kind,
          .object [("comment_id", .number (.int commentId))], now⟩ } commentId

theorem write_ok {a : Authorized} {now commentId : Int} {db db' : Db}
    (h : a.write now db = .ok (db', commentId)) : Written a now db db' commentId := by
  unfold Authorized.write at h
  cases haction : a.action with
  | create body =>
    rw [haction] at h
    obtain ⟨-, rfl, rfl⟩ := insertCommentTx_ok h
    exact .created body haction
  | edit id body =>
    rw [haction] at h
    obtain ⟨rfl, _, htx⟩ := returning_ok h
    obtain ⟨hissue, ⟨c, role, hget, hcomment, hlive, hrole, hallowed⟩, rfl⟩ := modifyCommentTx_ok htx
    have hkind : a.action.kind = .commentEdited := by rw [haction, Action.kind]
    rw [← hkind]
    exact .modified commentId _ c role (by rw [haction, Action.comment?]) (.inl hkind)
      (by simp [hkind]) hissue hget hcomment hlive hrole hallowed
  | delete id =>
    rw [haction] at h
    obtain ⟨rfl, _, htx⟩ := returning_ok h
    obtain ⟨hissue, ⟨c, role, hget, hcomment, hlive, hrole, hallowed⟩, rfl⟩ := modifyCommentTx_ok htx
    have hkind : a.action.kind = .commentDeleted := by rw [haction, Action.kind]
    rw [← hkind]
    exact .modified commentId _ c role (by rw [haction, Action.comment?]) (.inr hkind)
      (by simp [hkind]) hissue hget hcomment hlive hrole hallowed

theorem finish_cases (a : Authorized) (now : Int) (db : Db) :
    (∃ db' commentId, Written a now db db' commentId ∧ (a.finish now db).2 = db' ∧
        a.entry now db = [(a.action.kind, commentId)]) ∨
      ∃ e, a.write now db = .error e ∧ a.finish now db = (.error e, db) ∧ a.entry now db = [] := by
  cases h : a.write now db with
  | ok r =>
    refine .inl ⟨r.1, r.2, write_ok h, ?_, ?_⟩
    · simp only [Authorized.finish, transact, commit_ok h]
    · simp only [Authorized.entry, h]
  | error e =>
    refine .inr ⟨e, rfl, ?_, ?_⟩
    · simp only [Authorized.finish, transact, commit_error h]
    · simp only [Authorized.entry, h]

theorem logged_insert {db db' : Db} {a : Activity} (h : db'.activity = db.activity.insert a)
    (kind : ActivityKind) (commentId : Int) : logged db' kind commentId =
      logged db kind commentId + if a.kind = kind ∧ names commentId a = true then 1 else 0 := by
  simp only [logged, h, Table.rows_insert, List.countP_append, List.countP_singleton,
    decide_eq_true_eq, Bool.decide_and, Bool.and_eq_true, Bool.decide_eq_true]

/-- An operation that is not about a comment leaves all comments and their
timeline entries. -/
structure SameComments (db db' : Db) : Prop where
  comments : db'.comments = db.comments
  logged : ∀ kind commentId, ofComment kind = true → logged db' kind commentId = logged db kind commentId

theorem sameComments_of_eq {db db' : Db} (hcomments : db'.comments = db.comments)
    (hactivity : db'.activity = db.activity) : SameComments db db' :=
  ⟨hcomments, fun kind id _ => by simp only [logged, hactivity]⟩

theorem sameComments_insert {db db' : Db} {a : Activity} (hcomments : db'.comments = db.comments)
    (hactivity : db'.activity = db.activity.insert a) (hkind : ofComment a.kind = false) :
    SameComments db db' := by
  refine ⟨hcomments, fun kind id hk => ?_⟩
  have hne : a.kind ≠ kind := by
    rintro rfl
    rw [hk] at hkind
    cases hkind
  simp [logged_insert hactivity, hne]

theorem sameComments_commit {db : Db} {α : Type} {tx : Tx α}
    (h : ∀ db' a, tx db = .ok (db', a) → SameComments db db') :
    SameComments db (Server.silent (commit tx db)).2 :=
  commit_snd (SameComments db) (sameComments_of_eq rfl rfl) h

theorem exec_sameComments (cfg : Server.Setup) (now : Int) (db : Db) (op : Server.Op)
    (h : aboutComment op = false) : SameComments db (Server.exec cfg now db op).2 := by
  have hframe := Server.exec_frame cfg now db op
  cases op with
  | request r =>
    cases r with
    | ingest req body storageId =>
      rcases Server.exec_ingest cfg now db req body storageId with
        ⟨e, h⟩ | ⟨response, -, h⟩ | ⟨p, -, -, -, -, h⟩ <;> rw [h]
      · exact sameComments_of_eq rfl rfl
      · exact sameComments_of_eq rfl rfl
      · by_cases hkind : Ingest.kindOf req p db.issues = some .regressed
        · exact sameComments_insert rfl (if_pos hkind) rfl
        · exact sameComments_of_eq rfl (if_neg hkind)
    | setIssueStatus projectId issueId userId status =>
      refine sameComments_commit fun db' a htx => ?_
      obtain ⟨i, -, ⟨-, rfl⟩ | ⟨-, rfl⟩⟩ := setIssueStatusTx_ok htx
      · exact sameComments_of_eq rfl rfl
      · exact sameComments_insert rfl rfl rfl
    | replaceIssueTags projectId issueId userId tags =>
      refine sameComments_commit fun db' a htx => ?_
      obtain ⟨-, rfl | ⟨details, rfl⟩⟩ := replaceIssueTags_ok htx
      · exact sameComments_of_eq rfl rfl
      · exact sameComments_insert rfl rfl rfl
    | insertComment | updateComment | deleteComment => cases h
    | _ => exact sameComments_of_eq (hframe .comments rfl) (hframe .activity rfl)
  | worker w => exact sameComments_of_eq (hframe .comments rfl) (hframe .activity rfl)

theorem bookkept_other {cfg : Server.Setup} {w : World} {now : Int} {op : Server.Op}
    (h : Bookkept w) (hop : aboutComment op = false) :
    Bookkept { w with db := (Server.exec cfg now w.db op).2 } := by
  have hsame := exec_sameComments cfg now w.db op hop
  refine ⟨fun kind id hkind => ?_, fun id => ?_, fun id => ?_⟩
  · exact (hsame.logged kind id hkind).trans (h.logged kind id hkind)
  · simp only [hsame.comments, h.created id]
  · simp only [hsame.comments, h.deleted id]

/-- A committed transaction and its entry agree. -/
theorem bookkept_written {w : World} {a : Authorized} {now commentId : Int} {db' : Db}
    (h : Bookkept w) (hwritten : Written a now w.db db' commentId) (authorized : List Authorized) :
    Bookkept ⟨db', authorized, w.done ++ [(a.action.kind, commentId)]⟩ := by
  cases hwritten with
  | created body haction =>
    have hkind : a.action.kind = .comment := by rw [haction, Action.kind]
    refine ⟨fun kind id hk => ?_, fun id => ?_, fun id => ?_⟩
    · rw [logged_insert rfl, List.count_append, h.logged kind id hk]
      simp [names, Value.get, Value.lookup, List.count_singleton, hkind, beq_iff_eq, Prod.ext_iff]
    · have hcount := h.created id
      rw [List.count_append, hcount, Table.get?_insert]
      by_cases hid : id = w.db.comments.nextId
      · subst hid
        simp [hkind]
      · simp [hkind, hid, Ne.symm hid]
    · have hcount := h.deleted id
      rw [List.count_append, hcount, Table.get?_insert]
      by_cases hid : id = w.db.comments.nextId
      · subst hid
        simp [hkind]
      · simp [hkind, hid]
  | modified commentId change c role haction hkind hchange hissue hget hcomment hlive hrole hallowed =>
    refine ⟨fun kind id hk => ?_, fun id => ?_, fun id => ?_⟩
    · rw [logged_insert rfl, List.count_append, h.logged kind id hk]
      simp [names, Value.get, Value.lookup, List.count_singleton, beq_iff_eq, Prod.ext_iff]
    · have hcount := h.created id
      rw [List.count_append, hcount, Table.get?_update, Option.isSome_map]
      rcases hkind with hkind | hkind <;> simp [hkind]
    · have hcount := h.deleted id
      rw [List.count_append, hcount, Table.get?_update]
      by_cases hid : id = commentId
      · subst hid
        rcases hkind with hkind | hkind <;>
          simp [hget, hlive, hchange, hkind]
      · have hne : commentId ≠ id := fun heq => hid heq.symm
        simp [hid, hne]

/-- A checked request has a role in its project that suffices. -/
theorem authorize_ok {db : Db} {request : Request} {a : Authorized} (h : authorize db request = .ok a) :
    a.action.comment? = request.comment? ∧
      ∃ slug, Auth.requireProjectRole db a.userId slug .developer = .ok a.projectId := by
  cases request with
  | createComment | updateComment =>
    obtain ⟨_, -, h⟩ := Except.bind_ok h
    obtain ⟨projectId, hproject, h⟩ := Except.bind_ok h
    cases h
    exact ⟨rfl, _, hproject⟩
  | addComment | editCommentForm =>
    obtain ⟨_, -, h⟩ := Except.bind_ok h
    obtain ⟨_, -, h⟩ := Except.bind_ok h
    obtain ⟨projectId, hproject, h⟩ := Except.bind_ok h
    cases h
    exact ⟨rfl, _, hproject⟩
  | deleteComment =>
    obtain ⟨projectId, hproject, h⟩ := Except.bind_ok h
    cases h
    exact ⟨rfl, _, hproject⟩
  | deleteCommentForm =>
    obtain ⟨_, -, h⟩ := Except.bind_ok h
    obtain ⟨projectId, hproject, h⟩ := Except.bind_ok h
    cases h
    exact ⟨rfl, _, hproject⟩

/-- The user of a request under way is a developer of its project, at least. -/
def Developer (db : Db) (a : Authorized) : Prop :=
  ∃ role, membershipRole db a.projectId a.userId = some role ∧ .developer ≤ role

structure Inv (w : World) : Prop where
  bookkept : Bookkept w
  keys : w.db.UniqueKeys
  developers : ∀ a ∈ w.authorized, Developer w.db a

theorem Written.memberships {a : Authorized} {now commentId : Int} {db db' : Db}
    (h : Written a now db db' commentId) :
    db'.projects = db.projects ∧ db'.memberships = db.memberships := by
  cases h <;> exact ⟨rfl, rfl⟩

theorem Developer.congr {db db' : Db} {a : Authorized} (h : Developer db a)
    (hmemberships : db'.memberships = db.memberships) : Developer db' a := by
  unfold Developer membershipRole at h ⊢
  rwa [hmemberships]

theorem inv_fresh : Inv fresh where
  bookkept := ⟨fun _ _ _ => rfl, fun _ => rfl, fun _ => rfl⟩
  keys := ⟨by simp [fresh, Db.empty], by simp [fresh, Db.empty]⟩
  developers := nofun

theorem inv_step {cfg : Server.Setup} {w w' : World} {label : Label} (h : Inv w)
    (hstep : step cfg w label = some w') : Inv w' := by
  cases label with
  | check request =>
    simp only [step] at hstep
    split at hstep
    · next a ha =>
      cases hstep
      refine ⟨⟨h.bookkept.logged, h.bookkept.created, h.bookkept.deleted⟩, h.keys, ?_⟩
      intro b hb
      rcases List.mem_cons.mp hb with rfl | hb
      · obtain ⟨-, slug, hproject⟩ := authorize_ok ha
        obtain ⟨-, role, hrole, hmember⟩ := Auth.requireProjectRole_ok hproject
        exact ⟨role, Auth.membershipRole_of_member h.keys hmember, hrole⟩
      · exact h.developers b hb
    · cases hstep
      exact h
  | finish a now =>
    simp only [step] at hstep
    split at hstep
    · cases hstep
      rcases finish_cases a now w.db with ⟨db', id, hwritten, hdb, hentry⟩ | ⟨e, -, hfail, hentry⟩
      · rw [hdb, hentry]
        obtain ⟨hprojects, hmemberships⟩ := hwritten.memberships
        refine ⟨bookkept_written h.bookkept hwritten _, ?_, fun b hb => ?_⟩
        · exact Directory.DirectoryChange.uniqueKeys (.same ⟨hprojects, hmemberships⟩) h.keys
        · exact (h.developers b (List.mem_of_mem_erase hb)).congr hmemberships
      · rw [hfail, hentry, List.append_nil]
        refine ⟨⟨h.bookkept.logged, h.bookkept.created, h.bookkept.deleted⟩, h.keys, ?_⟩
        exact fun b hb => h.developers b (List.mem_of_mem_erase hb)
    · cases hstep
  | other now op =>
    simp only [step] at hstep
    split at hstep
    · next hop =>
      cases hstep
      refine ⟨bookkept_other h.bookkept hop.1, ?_, fun b hb => ?_⟩
      · exact (Directory.exec_directory cfg now w.db op).uniqueKeys h.keys
      · rcases hop.2 with hnone | hmemberships
        · rw [hnone] at hb
          cases hb
        · exact (h.developers b hb).congr hmemberships
    · cases hstep

/-- A committed edit or removal is of a live comment in a project where the user
is a developer at least, and its author or an admin. -/
def Permitted (w : World) : Label → Prop
  | .check _ | .other _ _ => True
  | .finish a now => ∀ commentId db', a.action.comment? = some commentId →
      a.write now w.db = .ok (db', commentId) →
      ∃ c role, w.db.comments.get? commentId = some c ∧ c.deletedAt = none ∧
        c.issueId = a.issueId ∧ (issueIn w.db a.projectId a.issueId).isSome ∧
        membershipRole w.db a.projectId a.userId = some role ∧ .developer ≤ role ∧
        (a.userId = c.userId ∨ .admin ≤ role)

theorem permitted_step {cfg : Server.Setup} {w w' : World} {label : Label} (h : Inv w)
    (hstep : step cfg w label = some w') : Permitted w label := by
  cases label with
  | check | other => trivial
  | finish a now =>
    simp only [step] at hstep
    split at hstep
    · next ha =>
      intro commentId db' hcomment hwrite
      cases write_ok hwrite with
      | created body haction => simp [haction, Action.comment?] at hcomment
      | modified _ change c role _ _ _ hissue hget hin hlive hrole hallowed =>
        obtain ⟨role', hrole', hdeveloper⟩ := h.developers a ha
        rw [hrole, Option.some.injEq] at hrole'
        exact ⟨c, role, hget, hlive, hin, hissue, hrole, hrole' ▸ hdeveloper,
          by simpa [canModifyComment] using hallowed⟩
    · cases hstep

/-- A comment that is removed stays as it is. -/
def Frozen (w w' : World) : Prop :=
  ∀ id c, w.db.comments.get? id = some c → c.deletedAt.isSome = true → w'.db.comments.get? id = some c

theorem frozen_step {cfg : Server.Setup} {w w' : World} {label : Label}
    (hstep : step cfg w label = some w') : Frozen w w' := by
  intro id c hget hdeleted
  cases label with
  | check request =>
    simp only [step] at hstep
    split at hstep <;> cases hstep <;> exact hget
  | finish a now =>
    simp only [step] at hstep
    split at hstep
    · cases hstep
      rcases finish_cases a now w.db with ⟨db', commentId, hwritten, hdb, -⟩ | ⟨e, -, hfail, -⟩
      · rw [hdb]
        cases hwritten with
        | created => exact w.db.comments.get?_insert_of_some _ hget
        | modified change =>
          have hlive : ¬ c.deletedAt = none := by
            intro hnone
            simp [hnone] at hdeleted
          simp [hget, hlive]
      · rw [hfail]
        exact hget
    · cases hstep
  | other now op =>
    simp only [step] at hstep
    split at hstep
    · next hop =>
      cases hstep
      rw [(exec_sameComments cfg now w.db op hop.1).comments]
      exact hget
    · cases hstep

/-- A tombstone is not found by the transaction of an edit or a removal. -/
theorem finish_tombstone {a : Authorized} {db : Db} {id : Int} {c : Comment}
    (haction : a.action.comment? = some id) (hget : db.comments.get? id = some c)
    (hdeleted : c.deletedAt.isSome = true) (now : Int) :
    a.finish now db = (.error .notFound, db) := by
  have hwrite : a.write now db = .error .notFound := by
    unfold Authorized.write
    cases hkind : a.action with
    | create body => simp [hkind, Action.comment?] at haction
    | edit commentId body | delete commentId =>
      obtain rfl : commentId = id := by simpa [hkind, Action.comment?] using haction
      exact returning_error _ (modifyCommentTx_tombstone hget hdeleted)
  simp only [Authorized.finish, transact, commit_error hwrite]

/-- A request to change a tombstone is refused by its checks or finds nothing. -/
theorem handle_tombstone {db : Db} {request : Request} {id : Int} {c : Comment}
    (hrequest : request.comment? = some id) (hget : db.comments.get? id = some c)
    (hdeleted : c.deletedAt.isSome = true) (now : Int) :
    handle now db request =
      (.error (match authorize db request with | .ok _ => .notFound | .error e => e), db) := by
  rw [handle_eq]
  cases h : authorize db request with
  | error e => rfl
  | ok a => exact finish_tombstone ((authorize_ok h).1.trans hrequest) hget hdeleted now

/-- In every run the timeline is kept, every change of a comment was permitted,
and a removed comment never changes again: later requests to edit or remove it
find nothing once they pass their checks. -/
theorem comment_lifecycle (cfg : Server.Setup) {labels : List Label} {w : World}
    (hr : Runs.run (step cfg) labels fresh = some w) :
    Bookkept w ∧ Runs.Along (step cfg) Permitted labels fresh ∧
      ∀ id c, w.db.comments.get? id = some c → c.deletedAt.isSome = true →
        ∀ later w', Runs.run (step cfg) later w = some w' →
          w'.db.comments.get? id = some c ∧
          (∀ (a : Authorized) now, a.action.comment? = some id → a.finish now w'.db = (.error .notFound, w'.db)) ∧
          ∀ request now, request.comment? = some id → handle now w'.db request =
            (.error (match authorize w'.db request with | .ok _ => .notFound | .error e => e),
              w'.db) := by
  refine ⟨(Runs.run_invariant (fun _ _ _ h hs => inv_step h hs) hr inv_fresh).bookkept, ?_, ?_⟩
  · exact Runs.along_of_invariant (fun _ _ _ h hs => inv_step h hs)
      (fun _ _ _ h hs => permitted_step h hs) hr inv_fresh
  · intro id c hget hdeleted later w' hlater
    have hget' : w'.db.comments.get? id = some c := by
      refine Runs.run_relation_of (I := fun _ => True) (R := Frozen) ?_ ?_ ?_ ?_ hlater trivial id c
        hget hdeleted
      · exact fun _ _ _ h _ => h
      · exact fun _ _ _ h₁ h₂ i c hi hd => h₂ i c (h₁ i c hi hd) hd
      · exact fun _ _ _ _ _ => trivial
      · exact fun _ _ _ _ hs => frozen_step hs
    exact ⟨hget', fun a now ha => finish_tombstone ha hget' hdeleted now,
      fun request now hrequest => handle_tombstone hrequest hget' hdeleted now⟩

/-- Ada owns the project, Bob is a viewer, and there is an issue. Ada comments
on it; then she removes the comment while an edit of it is under way. -/
def Sample.removal : List Label :=
  Server.Sample.installation.map (fun r => .other 0 (.request r)) ++ [
    .other 0 (.request (.writeMember
      ⟨1, .owner, 1, .viewer, ⟨"csrf", "bob@example.org", "Bob", "correct horse", "viewer"⟩⟩
      (.ok "$argon2id$"))),
    .other 10 (.request (.ingest ⟨1, 1, "demo"⟩ (Sample.eventBody "m") "018f")),
    .check (.createComment 1 "demo" 1 "Hello"), .finish ⟨1, 1, 1, .create "Hello", none⟩ 20,
    .check (.updateComment 1 "demo" 1 1 "Bye"), .check (.deleteComment 1 "demo" 1 1),
    .finish ⟨1, 1, 1, .delete 1, none⟩ 30, .finish ⟨1, 1, 1, .edit 1 "Bye", none⟩ 40]

def Sample.setup : Server.Setup := ⟨Sample.crates, none⟩

set_option maxRecDepth 20000 in
/-- The edit that lost the race is not an entry of the timeline. -/
theorem comment_lifecycle_removal :
    ∃ w, Runs.run (step Sample.setup) Sample.removal fresh = some w ∧
      w.done = [(.comment, 1), (.commentDeleted, 1)] ∧ logged w.db .commentDeleted 1 = 1 ∧
      ∀ now, (⟨1, 1, 1, .edit 1 "Bye", none⟩ : Authorized).finish now w.db =
        (.error .notFound, w.db) := by
  have hrun : ∃ w ∈ Runs.run (step Sample.setup) Sample.removal fresh,
      w.done = [(.comment, 1), (.commentDeleted, 1)] ∧
        ((w.db.comments.get? 1).bind Comment.deletedAt).isSome = true := by decide +kernel
  obtain ⟨w, hw, hdone, hdeleted⟩ := hrun
  obtain ⟨hbookkept, -, hfrozen⟩ := comment_lifecycle Sample.setup hw
  refine ⟨w, hw, hdone, ?_, fun now => ?_⟩
  · rw [hbookkept.logged .commentDeleted 1 rfl, hdone]
    rfl
  · obtain ⟨time, htime⟩ := Option.isSome_iff_exists.mp hdeleted
    obtain ⟨c, hget, hc⟩ := Option.bind_eq_some_iff.mp htime
    exact (hfrozen 1 c hget (by rw [hc, Option.isSome_some]) [] w rfl).2.1 _ now rfl

set_option maxRecDepth 20000 in
/-- A viewer who asks for the removal of a tombstone is told that it is
forbidden, not that there is nothing to remove. -/
theorem viewer_is_forbidden :
    ∃ w, Runs.run (step Sample.setup) Sample.removal fresh = some w ∧
      ((w.db.comments.get? 1).bind Comment.deletedAt).isSome = true ∧
      (handle 50 w.db (.deleteComment 2 "demo" 1 1)).1 = .error .forbidden := by
  have hrun : ∃ w ∈ Runs.run (step Sample.setup) Sample.removal fresh,
      ((w.db.comments.get? 1).bind Comment.deletedAt).isSome = true ∧
        (handle 50 w.db (.deleteComment 2 "demo" 1 1)).1 = .error .forbidden := by decide +kernel
  exact hrun

end Zbierak.Comments
