import Zbierak.Lib.Text
import Zbierak.Domain

/-!
# Form fields

Checks that the handlers share for the text a browser or an API client sends.
-/
namespace Zbierak.Forms

def requiredText (field value : String) (maximum : Nat) : Except AppError String :=
  let value := Text.trim value
  if value = "" ∨ Text.charCount value > maximum then
    .error (.badRequest s!"{field} must contain 1 to {maximum} characters")
  else .ok value

theorem requiredText_ok {field value text : String} {maximum : Nat}
    (h : requiredText field value maximum = .ok text) :
    text = Text.trim value ∧ text ≠ "" ∧ Text.charCount text ≤ maximum := by
  unfold requiredText at h
  dsimp only at h
  split at h
  · cases h
  · next hbound =>
    cases h
    exact ⟨rfl, fun hempty => hbound (.inl hempty), Nat.le_of_not_lt fun hlt => hbound (.inr hlt)⟩

def validateIdentity (email displayName : String) : Except AppError Unit := do
  let _ ← requiredText "display name" displayName 100
  let email ← requiredText "email" email 254
  if '@' ∉ email.toList ∨ email.toList.any Text.isWhitespace then
    .error (.badRequest "invalid email address")

def isSlugChar (c : Char) : Bool := ('a' ≤ c ∧ c ≤ 'z') ∨ ('0' ≤ c ∧ c ≤ '9') ∨ c = '-'

def validateSlug (slug : String) : Except AppError Unit :=
  if Text.byteLen slug < 2 ∨ Text.byteLen slug > 50 ∨ ¬ slug.toList.all isSlugChar ∨
      slug.toList.head? = some '-' ∨ slug.toList.getLast? = some '-' then
    .error (.badRequest "slug must use 2-50 lowercase letters, digits, or hyphens")
  else .ok ()

def slugMaxLen : Nat := 50

def isAsciiAlphanumeric (c : Char) : Bool :=
  ('a' ≤ c ∧ c ≤ 'z') ∨ ('A' ≤ c ∧ c ≤ 'Z') ∨ ('0' ≤ c ∧ c ≤ '9')

/-- The loop of `slugify`: the slug so far and whether a separator is due. -/
def slugifyLoop : List Char → List Char → Bool → List Char
  | [], slug, _ => slug
  | c :: cs, slug, pendingSeparator =>
    if isAsciiAlphanumeric c = false then slugifyLoop cs slug true
    else if slug.length + 1 > slugMaxLen then slug
    else if pendingSeparator = true ∧ slug ≠ [] ∧ slug.length + 2 ≤ slugMaxLen then
      slugifyLoop cs (slug ++ ['-', Text.lowerChar c]) false
    else slugifyLoop cs (slug ++ [Text.lowerChar c]) false

def slugify (value : String) : String := String.ofList (slugifyLoop value.toList [] false)

/-- `argon2` is what hashing with a fresh salt returns. -/
def hashPassword (argon2 : Except String String) (password : String) : Except AppError String :=
  if 12 ≤ Text.charCount password ∧ Text.charCount password ≤ 1024 then
    argon2.mapError fun error => .config s!"password hashing failed: {error}"
  else .error (.badRequest "password must contain between 12 and 1024 characters")

end Zbierak.Forms
