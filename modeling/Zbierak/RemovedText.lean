import Zbierak.IssuePage

/-!
# Removed text stays removed

Two stores that differ in the text of removed comments alone answer alike. Where
an answer is made from a store, it is the one made from the store whose removed
comments are blanked. The template of the page tests the time of the removal as
a number, so a comment removed at a time that counts as false is the exception.
-/
namespace Zbierak.RemovedText

open IssueApi IssuePage

def blank (c : Comment) : Comment := if c.deletedAt.isSome then { c with body := "" } else c

/-- The store without the text of removed comments. -/
def blanked (db : Db) : Db := { db with comments := db.comments.update (fun _ _ => true) blank }

/-- The store differs in the text of removed comments at most. -/
def SameButRemoved (db db' : Db) : Prop := blanked db' = blanked db

@[simp] theorem blank_issueId (c : Comment) : (blank c).issueId = c.issueId := by
  unfold blank
  split <;> rfl

@[simp] theorem blank_userId (c : Comment) : (blank c).userId = c.userId := by
  unfold blank
  split <;> rfl

@[simp] theorem blank_createdAt (c : Comment) : (blank c).createdAt = c.createdAt := by
  unfold blank
  split <;> rfl

@[simp] theorem blank_deletedAt (c : Comment) : (blank c).deletedAt = c.deletedAt := by
  unfold blank
  split <;> rfl

@[simp] theorem get?_blanked (db : Db) (id : Int) :
    (blanked db).comments.get? id = (db.comments.get? id).map blank := by
  simp [blanked]

theorem requireProjectRole_blanked (db : Db) (userId : Int) (slug : String) (minimum : ProjectRole) :
    Auth.requireProjectRole (blanked db) userId slug minimum =
      Auth.requireProjectRole db userId slug minimum := rfl

theorem issueIn_blanked (db : Db) (projectId issueId : Int) :
    Issues.issueIn (blanked db) projectId issueId = Issues.issueIn db projectId issueId := rfl

/-- Neither the order of the comments nor their issues depend on their text. -/
theorem commentsOf_blanked (db : Db) (issueId : Int) :
    commentsOf (blanked db) issueId = (commentsOf db issueId).map fun row => (row.1, blank row.2) := by
  have hselect : (blanked db).comments.select (fun _ c => c.issueId = issueId) =
      (db.comments.select fun _ c => c.issueId = issueId).map fun row => (row.1, blank row.2) := by
    simp [blanked, Table.select, List.filter_map, Function.comp_def]
  unfold commentsOf
  rw [hselect]
  exact (List.map_insertionSort _ _ _ _ fun a _ b _ => by simp).symm

theorem commentJson_blank (db : Db) (id : Int) (c : Comment) :
    commentJson db (id, blank c) = commentJson db (id, c) := by
  unfold blank
  split
  · next hdeleted => simp [commentJson, hdeleted]
  · rfl

theorem listComments_blanked (db : Db) (userId : Int) (slug : String) (issueId : Int) :
    listComments (blanked db) userId slug issueId = listComments db userId slug issueId := by
  have hrows := commentsOf_blanked db issueId
  unfold commentsOf at hrows
  have hjson : (fun row : Int × Comment => commentJson (blanked db) (row.1, blank row.2)) =
      commentJson db := by
    funext row
    exact commentJson_blank db row.1 row.2
  simp only [listComments, requireProjectRole_blanked, issueIn_blanked, hrows, List.filterMap_map,
    Function.comp_def, hjson]

/-- The representation of a comment depends on its blanked row alone. -/
theorem fetchCommentJson_congr {db db' : Db} {id : Int} (husers : db'.users = db.users)
    (hget : (db'.comments.get? id).map blank = (db.comments.get? id).map blank) :
    fetchCommentJson db' id = fetchCommentJson db id := by
  have hblank : ∀ c : Option Comment, c.bind (fun c => commentJson db (id, c)) =
      (c.map blank).bind fun c => commentJson db (id, c) := by
    intro c
    cases c with
    | none => rfl
    | some c => exact (commentJson_blank db id c).symm
  have hsame : ∀ row, commentJson db' row = commentJson db row := by
    intro row
    simp only [commentJson, husers]
  simp only [fetchCommentJson, hsame]
  rw [hblank, hget, ← hblank]

@[simp] theorem blank_blank (c : Comment) : blank (blank c) = blank c := by
  unfold blank
  split <;> simp_all

theorem blank_live {c : Comment} (h : c.deletedAt = none) : blank c = c := by
  simp [blank, h]

/-- A transaction that fails alike in both stores, or answers alike after it. -/
theorem transact_blanked {α : Type} {db : Db} {tx : Tx α} {answer : Db → α → Except AppError Response}
    (h : (∃ e, tx db = .error e ∧ tx (blanked db) = .error e) ∨ ∃ db₁ db₂ a, tx db = .ok (db₁, a) ∧
      tx (blanked db) = .ok (db₂, a) ∧ answer db₂ a = answer db₁ a) :
    (transact (blanked db) tx answer).1 = (transact db tx answer).1 := by
  unfold transact
  rcases h with ⟨e, h₁, h₂⟩ | ⟨db₁, db₂, a, h₁, h₂, hanswer⟩
  · rw [commit_error h₁, commit_error h₂]
  · rw [commit_ok h₁, commit_ok h₂]
    exact hanswer

theorem createComment_blanked (now : Int) (db : Db) (userId : Int) (slug : String) (issueId : Int)
    (body : String) : (createComment now (blanked db) userId slug issueId body).1 =
      (createComment now db userId slug issueId body).1 := by
  unfold createComment checked
  rw [requireProjectRole_blanked]
  cases validateCommentBody body with
  | error e => rfl
  | ok body =>
    cases Auth.requireProjectRole db userId slug .developer with
    | error e => rfl
    | ok projectId =>
      refine transact_blanked ?_
      unfold Issues.insertCommentTx
      rw [issueIn_blanked]
      cases Issues.issueIn db projectId issueId with
      | none => exact .inl ⟨_, rfl, rfl⟩
      | some i =>
        refine .inr ⟨_, _, _, rfl, rfl, congrArg _ (fetchCommentJson_congr rfl ?_)⟩
        simp [Issues.addActivity, blanked, Table.nextId]

theorem loadCommentAccess_blanked (db : Db) (projectId issueId commentId : Int) :
    Issues.loadCommentAccess (blanked db) projectId issueId commentId =
      Issues.loadCommentAccess db projectId issueId commentId := by
  unfold Issues.loadCommentAccess
  rw [get?_blanked]
  cases db.comments.get? commentId with
  | none => rfl
  | some c =>
    by_cases h : c.issueId = issueId ∧ (Issues.issueIn db projectId issueId).isSome = true
    · simp [Option.filter, issueIn_blanked, h]
    · simp [Option.filter, issueIn_blanked, h]

/-- Whether there is a live comment with this id. -/
theorem select_live_blanked (db : Db) (commentId : Int) :
    ((blanked db).comments.select fun id c => id = commentId ∧ c.deletedAt = none).isEmpty =
      (db.comments.select fun id c => id = commentId ∧ c.deletedAt = none).isEmpty := by
  have hselect : ((blanked db).comments.select fun id c => id = commentId ∧ c.deletedAt = none) =
      (db.comments.select fun id c => id = commentId ∧ c.deletedAt = none).map
        fun row => (row.1, blank row.2) := by
    simp [blanked, Table.select, List.filter_map, Function.comp_def]
  rw [hselect, List.isEmpty_map]

/-- The checks of an edit or a removal inside its transaction. -/
def mayModify (db : Db) (projectId userId issueId commentId : Int) : Except AppError Unit := do
  let (authorId, deletedAt) ← Issues.loadCommentAccess db projectId issueId commentId
  if deletedAt.isSome then .error .notFound
  else
    let role ← Issues.actorRoleInProject db projectId userId
    if Issues.canModifyComment role userId authorId = false then .error .forbidden
    else if (db.comments.select fun id c => id = commentId ∧ c.deletedAt = none).isEmpty then
      .error .notFound
    else .ok ()

theorem modifyCommentTx_eq (db : Db) (projectId userId issueId commentId : Int)
    (change : Comment → Comment) (kind : ActivityKind) (now : Int) :
    Issues.modifyCommentTx projectId userId issueId commentId change kind now db =
      (mayModify db projectId userId issueId commentId).map fun _ =>
        (Issues.addActivity { db with
            comments := db.comments.update (fun id c => id = commentId ∧ c.deletedAt = none) change }
          issueId userId kind [("comment_id", .number (.int commentId))] now, ()) := by
  unfold Issues.modifyCommentTx mayModify
  cases Issues.loadCommentAccess db projectId issueId commentId with
  | error e => rfl
  | ok access =>
    simp only [bind, Except.bind]
    split
    · rfl
    · cases Issues.actorRoleInProject db projectId userId with
      | error e => rfl
      | ok role =>
        dsimp only
        split
        · rfl
        · split <;> rfl

theorem mayModify_blanked (db : Db) (projectId userId issueId commentId : Int) :
    mayModify (blanked db) projectId userId issueId commentId =
      mayModify db projectId userId issueId commentId := by
  unfold mayModify
  rw [loadCommentAccess_blanked, select_live_blanked]
  rfl

theorem updateComment_blanked (now : Int) (db : Db) (userId : Int) (slug : String)
    (issueId commentId : Int) (body : String) :
    (updateComment now (blanked db) userId slug issueId commentId body).1 =
      (updateComment now db userId slug issueId commentId body).1 := by
  unfold updateComment checked
  rw [requireProjectRole_blanked]
  cases validateCommentBody body with
  | error e => rfl
  | ok body =>
    cases Auth.requireProjectRole db userId slug .developer with
    | error e => rfl
    | ok projectId =>
      refine transact_blanked ?_
      unfold Issues.updateCommentTx
      rw [modifyCommentTx_eq, modifyCommentTx_eq, mayModify_blanked]
      cases mayModify db projectId userId issueId commentId with
      | error e => exact .inl ⟨_, rfl, rfl⟩
      | ok u =>
        refine .inr ⟨_, _, _, rfl, rfl, congrArg _ (fetchCommentJson_congr rfl ?_)⟩
        simp only [Issues.addActivity, Table.get?_update, get?_blanked, Option.map_map]
        congr 1
        funext c
        by_cases hlive : c.deletedAt = none
        · simp [hlive, blank_live hlive]
        · simp [hlive]

def blankRow (c : CommentRow) : CommentRow := if c.deletedAt.isSome then { c with body := "" } else c

theorem commentRow_blanked (r : Rendering) (db : Db) (id : Int) (c : Comment) :
    commentRow r (blanked db) (id, blank c) = (commentRow r db (id, c)).map blankRow := by
  have husers : (blanked db).users = db.users := rfl
  have havatar : ∀ userId, avatarOf (blanked db) userId = avatarOf db userId := fun _ => rfl
  simp only [commentRow, husers, havatar, Option.map_map, blank_userId]
  congr 1
  funext author
  by_cases hdeleted : c.deletedAt.isSome = true
  · simp [blank, blankRow, hdeleted]
  · simp [blank, blankRow, hdeleted]

/-- The details of an issue without the text of removed comments. -/
def blankDetails (details : IssueDetails) : IssueDetails :=
  { details with comments := details.comments.map blankRow }

theorem loadIssueDetails_blanked (env : Crates) (r : Rendering) (scan : Scan) (db : Db) (userId : Int)
    (slug : String) (issueId : Int) :
    loadIssueDetails env r scan (blanked db) userId slug issueId =
      (loadIssueDetails env r scan db userId slug issueId).map blankDetails := by
  have hcomments : (commentsOf (blanked db) issueId).filterMap (commentRow r (blanked db)) =
      ((commentsOf db issueId).filterMap (commentRow r db)).map blankRow := by
    rw [commentsOf_blanked, List.filterMap_map, List.map_filterMap]
    exact List.filterMap_congr fun row _ => commentRow_blanked r db row.1 row.2
  unfold loadIssueDetails
  rw [requireProjectRole_blanked]
  cases Auth.requireProjectRole db userId slug .viewer with
  | error e => rfl
  | ok projectId =>
    have hprojects : (blanked db).projects = db.projects := rfl
    have hrole : Auth.membershipRole (blanked db) projectId userId =
        Auth.membershipRole db projectId userId := rfl
    simp only [bind, Except.bind, hcomments, hprojects, hrole, issueIn_blanked]
    cases db.projects.get? projectId with
    | none => rfl
    | some p =>
      cases Auth.membershipRole db projectId userId with
      | none => rfl
      | some role =>
        cases Issues.issueIn db projectId issueId with
        | none => rfl
        | some i => rfl

theorem commentEntry_blank (r : Rendering) (c : CommentRow) :
    commentEntry r (blankRow c) = commentEntry r c := by
  unfold blankRow
  split
  · next hdeleted => simp [commentEntry, hdeleted]
  · rfl

/-- No section of the export shows the text of a removed comment. -/
theorem sections_blank (env : Crates) (r : Rendering) (details : IssueDetails) :
    sections env r (blankDetails details) = sections env r details := by
  have hcomments : commentsSection r (blankDetails details) = commentsSection r details := by
    simp only [commentsSection, blankDetails, List.map_eq_nil_iff, List.map_map, Function.comp_def,
      commentEntry_blank]
  simp only [sections, hcomments]
  rfl

/-- The reader of the page may edit what the author wrote on the issue. -/
def Editor (db : Db) (session : Auth.Session) (slug : String) (issueId authorId : Int) : Prop :=
  (db.users.get? authorId).isSome = true ∧ ∃ projectId role,
    Auth.requireProjectRole db session.userId slug .viewer = .ok projectId ∧
    Auth.membershipRole db projectId session.userId = some role ∧
    (Issues.issueIn db projectId issueId).isSome = true ∧
    mayEdit role session.userId authorId = true

/-- Whatever the reader of the page may edit, the template takes the time of its
removal for true. -/
def Recognized (r : Rendering) (db : Db) (session : Auth.Session) (slug : String) (issueId : Int) :
    Prop :=
  ∀ id c, db.comments.get? id = some c → c.issueId = issueId → c.deletedAt.isSome = true →
    Editor db session slug issueId c.userId → r.truthy c.deletedAt = true

theorem loadIssueDetails_ok {env : Crates} {r : Rendering} {scan : Scan} {db : Db} {userId : Int}
    {slug : String} {issueId : Int} {details : IssueDetails}
    (h : loadIssueDetails env r scan db userId slug issueId = .ok details) :
    ∃ projectId, Auth.requireProjectRole db userId slug .viewer = .ok projectId ∧
      Auth.membershipRole db projectId userId = some details.project.role ∧
      (Issues.issueIn db projectId issueId).isSome = true ∧
      details.comments = (commentsOf db issueId).filterMap (commentRow r db) := by
  obtain ⟨projectId, hproject, h⟩ := Except.bind_ok h
  refine ⟨projectId, hproject, ?_⟩
  split at h
  · split at h
    · next role hrole =>
      split at h
      · next i hi =>
        cases h
        exact ⟨hrole, by rw [hi, Option.isSome_some], rfl⟩
      · cases h
    · cases h
  · cases h

/-- A row of the page and its comment. -/
theorem mem_comments {r : Rendering} {db : Db} {issueId : Int} {row : CommentRow} :
    row ∈ (commentsOf db issueId).filterMap (commentRow r db) ↔ ∃ c author,
      db.comments.get? row.id = some c ∧ c.issueId = issueId ∧ db.users.get? c.userId = some author ∧
        commentRow r db (row.id, c) = some row := by
  simp only [List.mem_filterMap, commentsOf, List.mem_insertionSort, Prod.exists, Table.mem_select,
    decide_eq_true_eq]
  constructor
  · rintro ⟨id, c, ⟨hget, hissue⟩, hrow⟩
    obtain ⟨author, hauthor, heq⟩ := Option.map_eq_some_iff.mp hrow
    have hid : row.id = id := by rw [← heq]
    rw [hid]
    exact ⟨c, author, hget, hissue, hauthor, hrow⟩
  · rintro ⟨c, author, hget, hissue, -, hrow⟩
    exact ⟨row.id, c, ⟨hget, hissue⟩, hrow⟩

theorem commentRow_fields {r : Rendering} {db : Db} {id : Int} {c : Comment} {row : CommentRow}
    (h : commentRow r db (id, c) = some row) :
    row.id = id ∧ row.body = c.body ∧ row.userId = c.userId ∧ row.deletedAt = c.deletedAt := by
  obtain ⟨author, -, rfl⟩ := Option.map_eq_some_iff.mp h
  exact ⟨rfl, rfl, rfl, rfl⟩

theorem commentCard_blank (r : Rendering) {role : ProjectRole} {userId : Int} {c : CommentRow}
    (h : c.deletedAt.isSome = true → mayEdit role userId c.userId = true → r.truthy c.deletedAt = true) :
    commentCard r role userId (blankRow c) = commentCard r role userId c := by
  unfold blankRow
  split
  · next hdeleted =>
    by_cases hedit : mayEdit role userId c.userId = true
    · simp [commentCard, h hdeleted hedit]
    · simp [commentCard, hedit]
  · rfl

theorem issue_blanked (env : Crates) {r : Rendering} (scan : Scan) {db : Db} {session : Auth.Session}
    {slug : String} {issueId : Int} (h : Recognized r db session slug issueId) :
    issue env r scan (blanked db) session slug issueId = issue env r scan db session slug issueId := by
  unfold issue
  rw [loadIssueDetails_blanked]
  cases hload : loadIssueDetails env r scan db session.userId slug issueId with
  | error e => rfl
  | ok details =>
    obtain ⟨projectId, hproject, hrole, hissue, hcomments⟩ := loadIssueDetails_ok hload
    have hcards : (details.comments.map blankRow).map
          (commentCard r details.project.role session.userId) =
        details.comments.map (commentCard r details.project.role session.userId) := by
      rw [List.map_map]
      refine List.map_congr_left fun row hrow => commentCard_blank r fun hdeleted hedit => ?_
      rw [hcomments] at hrow
      obtain ⟨c, author, hget, hin, hauthor, heq⟩ := mem_comments.mp hrow
      obtain ⟨-, -, huser, hdeletedAt⟩ := commentRow_fields heq
      rw [hdeletedAt] at hdeleted ⊢
      rw [huser] at hedit
      exact h row.id c hget hin hdeleted
        ⟨by rw [hauthor, Option.isSome_some], projectId, _, hproject, hrole, hissue, hedit⟩
    simp only [Except.map, bind, Except.bind, blankDetails, hcards]
    rfl

theorem loadIssueDetails_some (env : Crates) (r : Rendering) (scan : Scan) {db : Db} {userId : Int}
    {slug : String} {issueId projectId : Int} {role : ProjectRole}
    (hproject : Auth.requireProjectRole db userId slug .viewer = .ok projectId)
    (hrole : Auth.membershipRole db projectId userId = some role)
    (hissue : (Issues.issueIn db projectId issueId).isSome = true) :
    ∃ details, loadIssueDetails env r scan db userId slug issueId = .ok details ∧
      details.project.role = role := by
  obtain ⟨⟨p, hp, -⟩, -⟩ := Auth.requireProjectRole_ok hproject
  obtain ⟨i, hi⟩ := Option.isSome_iff_exists.mp hissue
  simp only [loadIssueDetails, hproject, bind, Except.bind, hp, hrole, hi]
  exact ⟨_, rfl, rfl⟩

/-- The store in which one comment has more text. -/
def extended (db : Db) (commentId : Int) : Db := { db with
  comments := db.comments.update (fun id _ => id = commentId) fun c => { c with body := c.body ++ "x" } }

theorem sameButRemoved_extended {db : Db} {commentId : Int} {c : Comment}
    (hget : db.comments.get? commentId = some c) (hdeleted : c.deletedAt.isSome = true) :
    SameButRemoved db (extended db commentId) := by
  have hcomments : (blanked (extended db commentId)).comments = (blanked db).comments := by
    refine Table.eq_of_rows ?_ rfl
    simp only [blanked, extended, Table.rows_update, List.map_map]
    refine List.map_congr_left fun row hrow => ?_
    by_cases hid : row.1 = commentId
    · have hrow' := db.comments.get?_eq_some.mpr hrow
      rw [hid, hget, Option.some.injEq] at hrow'
      simp [hid, blank, ← hrow', hdeleted]
    · simp [hid]
  unfold SameButRemoved
  unfold blanked at hcomments ⊢
  rw [Db.mk.injEq]
  exact ⟨rfl, rfl, rfl, rfl, rfl, rfl, rfl, rfl, hcomments, rfl, rfl, rfl, rfl, rfl, rfl, rfl, rfl⟩

/-- A card with an edit form shows the text of its comment. -/
theorem content_edit {r : Rendering} {role : ProjectRole} {userId : Int} {row : CommentRow}
    {html text : String} {id : Int}
    (h : (commentCard r role userId row).content = .body html (some (id, text))) :
    row.id = id ∧ row.body = text := by
  simp only [commentCard] at h
  split at h
  · cases h
  · split at h
    · cases h
      exact ⟨rfl, rfl⟩
    · cases h

theorem recognized_of_same {env : Crates} {r : Rendering} {scan : Scan} {db : Db}
    {session : Auth.Session} {slug : String} {issueId : Int}
    (h : ∀ db', SameButRemoved db db' →
      issue env r scan db' session slug issueId = issue env r scan db session slug issueId) :
    Recognized r db session slug issueId := by
  rintro id c hget hissue hdeleted ⟨hauthor, projectId, role, hproject, hrole, hi, hedit⟩
  by_contra htruthy
  -- Two stores in which the edit form of the comment has different texts.
  obtain ⟨details, hload, hreader⟩ := loadIssueDetails_some env r scan hproject hrole hi
  obtain ⟨details', hload', hreader'⟩ : ∃ details, loadIssueDetails env r scan (extended db id)
      session.userId slug issueId = .ok details ∧ details.project.role = role :=
    loadIssueDetails_some env r scan hproject hrole hi
  have hpages := h (extended db id) (sameButRemoved_extended hget hdeleted)
  have hcards : details'.comments.map (commentCard r role session.userId) =
      details.comments.map (commentCard r role session.userId) := by
    have hcomments := congrArg (fun page => page.map Page.comments) hpages
    simpa [issue, hload, hload', hreader, hreader', bind, Except.bind, Except.map] using hcomments
  obtain ⟨-, -, -, -, hrows⟩ := loadIssueDetails_ok hload
  obtain ⟨-, -, -, -, hrows'⟩ := loadIssueDetails_ok hload'
  obtain ⟨author, hauthor⟩ := Option.isSome_iff_exists.mp hauthor
  obtain ⟨row, hrow⟩ : ∃ row, commentRow r db (id, c) = some row := by
    simp only [commentRow, hauthor, Option.map_some, Option.some.injEq, exists_eq']
  obtain ⟨hid, hbody, huser, hdeletedAt⟩ := commentRow_fields hrow
  have hmem : row ∈ details.comments := by
    rw [hrows, mem_comments]
    exact ⟨c, author, hid ▸ hget, hissue, hauthor, hid ▸ hrow⟩
  have hcontent : (commentCard r role session.userId row).content =
      .body row.bodyHtml (some (id, c.body)) := by
    simp [commentCard, hdeletedAt, htruthy, huser, hedit, hid, hbody]
  have hcard := List.mem_map_of_mem (f := commentCard r role session.userId) hmem
  rw [← hcards, List.mem_map] at hcard
  obtain ⟨row', hmem', hsame⟩ := hcard
  rw [← hsame] at hcontent
  obtain ⟨hid', hbody'⟩ := content_edit hcontent
  rw [hrows', mem_comments] at hmem'
  obtain ⟨c', -, hget', -, -, hrow'⟩ := hmem'
  obtain ⟨-, hbody'', -, -⟩ := commentRow_fields hrow'
  rw [hid'] at hget'
  simp only [extended, Table.get?_update, hget, Option.map_some, decide_true, if_true,
    Option.some.injEq] at hget'
  have hlength := congrArg String.length (hbody'.symm.trans (hbody''.trans (congrArg Comment.body hget'.symm)))
  simp at hlength

/-- What is answered from two stores is the same. -/
structure Indistinguishable (env : Crates) (r : Rendering) (scan : Scan) (session : Auth.Session)
    (slug : String) (issueId : Int) (db db' : Db) : Prop where
  list : ∀ userId slug issueId, listComments db' userId slug issueId = listComments db userId slug issueId
  created : ∀ now userId slug issueId body,
    (createComment now db' userId slug issueId body).1 = (createComment now db userId slug issueId body).1
  updated : ∀ now userId slug issueId commentId body,
    (updateComment now db' userId slug issueId commentId body).1 =
      (updateComment now db userId slug issueId commentId body).1
  sections : (loadIssueDetails env r scan db' session.userId slug issueId).map (sections env r) =
    (loadIssueDetails env r scan db session.userId slug issueId).map (sections env r)
  page : issue env r scan db' session slug issueId = issue env r scan db session slug issueId

theorem Indistinguishable.of_recognized {env : Crates} {r : Rendering} {scan : Scan}
    {session : Auth.Session} {slug : String} {issueId : Int} {db : Db}
    (h : Recognized r db session slug issueId) :
    Indistinguishable env r scan session slug issueId db (blanked db) where
  list := listComments_blanked db
  created := fun now => createComment_blanked now db
  updated := fun now => updateComment_blanked now db
  sections := by
    rw [loadIssueDetails_blanked]
    cases loadIssueDetails env r scan db session.userId slug issueId with
    | error e => rfl
    | ok details =>
      simp only [Except.map]
      rw [sections_blank]
  page := issue_blanked env scan h

theorem recognized_blanked {r : Rendering} {db : Db} {session : Auth.Session} {slug : String}
    {issueId : Int} :
    Recognized r (blanked db) session slug issueId ↔ Recognized r db session slug issueId := by
  have heditor : ∀ userId, Editor (blanked db) session slug issueId userId ↔
      Editor db session slug issueId userId := fun _ => Iff.rfl
  constructor
  · intro h id c hget hissue hdeleted hreader
    have hblank := h id (blank c) (by rw [get?_blanked, hget, Option.map_some])
    simp only [blank_issueId, blank_deletedAt, blank_userId] at hblank
    exact hblank hissue hdeleted hreader
  · intro h id c hget hissue hdeleted hreader
    rw [get?_blanked] at hget
    obtain ⟨live, hlive, rfl⟩ := Option.map_eq_some_iff.mp hget
    simp only [blank_issueId, blank_deletedAt, blank_userId] at hissue hdeleted hreader ⊢
    exact h id live hlive hissue hdeleted hreader

theorem Indistinguishable.symm {env : Crates} {r : Rendering} {scan : Scan} {session : Auth.Session}
    {slug : String} {issueId : Int} {db db' : Db}
    (h : Indistinguishable env r scan session slug issueId db db') :
    Indistinguishable env r scan session slug issueId db' db where
  list userId slug issueId := (h.list userId slug issueId).symm
  created now userId slug issueId body := (h.created now userId slug issueId body).symm
  updated now userId slug issueId commentId body :=
    (h.updated now userId slug issueId commentId body).symm
  sections := h.sections.symm
  page := h.page.symm

theorem Indistinguishable.trans {env : Crates} {r : Rendering} {scan : Scan} {session : Auth.Session}
    {slug : String} {issueId : Int} {db₁ db₂ db₃ : Db}
    (h₁ : Indistinguishable env r scan session slug issueId db₁ db₂)
    (h₂ : Indistinguishable env r scan session slug issueId db₂ db₃) :
    Indistinguishable env r scan session slug issueId db₁ db₃ where
  list userId slug issueId := (h₂.list userId slug issueId).trans (h₁.list userId slug issueId)
  created now userId slug issueId body :=
    (h₂.created now userId slug issueId body).trans (h₁.created now userId slug issueId body)
  updated now userId slug issueId commentId body :=
    (h₂.updated now userId slug issueId commentId body).trans
      (h₁.updated now userId slug issueId commentId body)
  sections := h₂.sections.trans h₁.sections
  page := h₂.page.trans h₁.page

/-- Every answer but the page hides removed text from every store; the page of an
issue does exactly when its template recognizes the removals that its reader
could edit. -/
theorem removed_text_hidden (env : Crates) (r : Rendering) (scan : Scan) (db : Db)
    (session : Auth.Session) (slug : String) (issueId : Int) :
    (∀ db', SameButRemoved db db' → Indistinguishable env r scan session slug issueId db db') ↔
      Recognized r db session slug issueId := by
  constructor
  · exact fun h => recognized_of_same fun db' hsame => (h db' hsame).page
  · intro h db' hsame
    have h' : Recognized r db' session slug issueId :=
      recognized_blanked.mp (hsame ▸ recognized_blanked.mpr h)
    have hfirst : Indistinguishable env r scan session slug issueId db (blanked db) := .of_recognized h
    have hsecond : Indistinguishable env r scan session slug issueId db' (blanked db') :=
      .of_recognized h'
    exact hfirst.trans (hsame ▸ hsecond.symm)

/-- Numbers are true unless they are zero. -/
def Sample.rendering : Rendering where
  truthy := fun value => value.any fun n => n ≠ 0
  renderMarkdown := fun text => s!"<p>{text}</p>"
  formatUnix := toString

/-- Ada, an owner, wrote a comment that was removed at the Unix epoch. -/
def Sample.removed (body : String) : Db := { Db.empty with
  users := Table.empty.insert ⟨"ada@example.org", "Ada", ""⟩
  projects := Table.empty.insert ⟨"demo", "Demo", "", 1⟩
  memberships := [⟨1, 1, .owner⟩]
  issues := Table.empty.insert ⟨1, "f", "m", .unresolved, 1, 0, 0⟩
  comments := Table.empty.insert ⟨1, 1, body, 0, none, some 1, some 0⟩ }

def Sample.cards (db : Db) : Option (List CommentCard) :=
  (issue Sample.crates Sample.rendering id db ⟨1, "csrf"⟩ "demo" 1).toOption.map Page.comments

/-- Her edit form has the text, so the pages of two such stores differ. -/
theorem epoch_removal_is_shown :
    SameButRemoved (Sample.removed "secret") (Sample.removed "other") ∧
      issue Sample.crates Sample.rendering id (Sample.removed "other") ⟨1, "csrf"⟩ "demo" 1 ≠
        issue Sample.crates Sample.rendering id (Sample.removed "secret") ⟨1, "csrf"⟩ "demo" 1 := by
  refine ⟨rfl, fun hsame => ?_⟩
  have hcards : Sample.cards (Sample.removed "other") = Sample.cards (Sample.removed "secret") :=
    congrArg (fun page => page.toOption.map Page.comments) hsame
  exact absurd hcards (by decide +kernel)

end Zbierak.RemovedText
