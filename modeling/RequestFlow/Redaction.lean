import RequestFlow.Text.Blank
import RequestFlow.Text.Caseless
import RequestFlow.Text.Search
import RequestFlow.Text.Word

/-!
# Redaction

Secrets in a text are recognised by what stands in front of them: the name of a
header, the name of a scheme, or a name that is given a value.  What is in front
is kept and the secret is replaced.  There are four kinds of secrets, and the text
is searched for one kind after the other, each time from its beginning and without
looking again at what was replaced in this search.  Letters are compared without
regard to their case, and with two that are folded with ASCII letters.
-/

namespace RequestFlow.Redaction

open RequestFlow.Text

/-- The lower-case letter that a letter is folded with: the long s and the sign of
the kelvin are folded with letters of ASCII, too. -/
def fold (character : Char) : Char :=
  if character == '\u017f' then 's'
  else if character == '\u212a' then 'k'
  else character.toLower

/-- The text begins with a word in lower-case letters, up to folding. -/
def beginsWith (word text : List Char) : Bool :=
  startsWith word ((text.take word.length).map fold)

/-- The text ends with a word in lower-case letters, up to folding. -/
def endsWith (word text : List Char) : Bool :=
  beginsWith word.reverse text.reverse

/-- A letter, up to folding, or a digit. -/
def isLetterOrDigit (character : Char) : Bool :=
  (fold character).isAlphanum

/-- A word can begin behind a character. -/
def isBoundary (before : Option Char) : Bool :=
  !before.any isWordChar

/-- A kind of secret: how many characters in front of it are recognised at a
place, where the character before the place is known, and how many characters the
secret has. -/
structure Pattern where
  /-- The number of characters in front of the secret. -/
  opening? : Option Char → List Char → Option Nat
  /-- The number of characters of the secret. -/
  extent : List Char → Nat

/-- A secret in a text. -/
structure Finding where
  /-- The characters in front of it. -/
  kept : List Char
  secret : List Char
  rest : List Char

/-- The secret that is recognised at a place, if it is not empty. -/
def Pattern.find? (pattern : Pattern) (before : Option Char) (text : List Char) :
    Option Finding :=
  (pattern.opening? before text).bind fun count =>
    let ahead := text.drop count
    let length := pattern.extent ahead
    if (ahead.take length).isEmpty then none
    else some ⟨text.take count, ahead.take length, ahead.drop length⟩

theorem Pattern.eq_of_find? {pattern : Pattern} {before : Option Char}
    {text : List Char} {finding : Finding}
    (found : pattern.find? before text = some finding) :
    text = finding.kept ++ finding.secret ++ finding.rest ∧
      finding.secret ≠ [] := by
  obtain ⟨count, _, found⟩ := Option.bind_eq_some_iff.1 found
  simp only at found
  split at found
  · exact absurd found (by simp)
  · next visible =>
      simp only [Option.some.injEq] at found
      subst found
      refine ⟨?_, by simpa using visible⟩
      simp only [List.append_assoc, List.take_append_drop]

theorem Pattern.length_of_find? {pattern : Pattern} {before : Option Char}
    {text : List Char} {finding : Finding}
    (found : pattern.find? before text = some finding) :
    finding.rest.length < text.length := by
  obtain ⟨whole, visible⟩ := eq_of_find? found
  have := List.length_pos_iff.2 visible
  rw [whole]
  simp only [List.length_append]
  omega

/-- Replaces the secrets of one kind, from left to right. -/
def Pattern.replace (pattern : Pattern) (replacement : List Char)
    (before : Option Char) (text : List Char) : List Char :=
  match found : pattern.find? before text with
  | some finding =>
      have := length_of_find? found
      finding.kept ++ replacement ++
        pattern.replace replacement finding.secret.getLast? finding.rest
  | none =>
      match text with
      | [] => []
      | character :: rest =>
          character :: pattern.replace replacement (some character) rest
termination_by text.length

/-- The end of a line. -/
def isLineEnd (character : Char) : Bool :=
  character == '\r' || character == '\n'

/-- The number of blank characters, at least one, that lead up to a text on a
line: as many as possible, so that only where nothing else follows is the text
itself blank. -/
def gapBeforeLine? (text : List Char) : Option Nat :=
  let blanks := text.takeWhile isBlank
  let count :=
    if blanks.length < text.length then blanks.length
    else (blanks.reverse.dropWhile isLineEnd).length - 1
  if count = 0 then none else some count

/-- The number of blank characters, at least one, in front of a text. -/
def gap? (text : List Char) : Option Nat :=
  let count := (text.takeWhile isBlank).length
  if count = 0 then none else some count

/-- The value of the header of authorization, up to the end of the line. -/
def authorization : Pattern :=
  let word := "authorization:".toList
  { opening? := fun _ text =>
      if beginsWith word text then
        (gapBeforeLine? (text.drop word.length)).map (word.length + ·)
      else none
    extent :=
      fun text => (text.takeWhile fun character => !isLineEnd character).length }

/-- The number of characters of a credential: some of a class and then equals
signs. -/
def credentialExtent (isValueChar : Char → Bool) (text : List Char) : Nat :=
  let value := text.takeWhile isValueChar
  if value.isEmpty then 0
  else
    value.length +
      ((text.drop value.length).takeWhile fun character => character == '=').length

/-- The credential behind the name of a scheme. -/
def credential (scheme : String) (isValueChar : Char → Bool) : Pattern :=
  let word := scheme.toList
  { opening? := fun before text =>
      if isBoundary before && beginsWith word text then
        (gap? (text.drop word.length)).map (word.length + ·)
      else none
    extent := credentialExtent isValueChar }

/-- The credential of a bearer. -/
def bearer : Pattern :=
  credential "bearer" fun character =>
    isLetterOrDigit character || "-._~+/".toList.contains character

/-- The credential of a user with a password. -/
def basic : Pattern :=
  credential "basic" fun character =>
    isLetterOrDigit character || "+/".toList.contains character

/-- A character of a name that is given a value. -/
def isNameChar (character : Char) : Bool :=
  isLetterOrDigit character || character == '_'

/-- The ends of names whose values are secret. -/
def secretNames : List String := ["api_key", "token", "secret", "password"]

/-- The number of characters of a mark of assignment with the blanks around it. -/
def assignmentMark? (text : List Char) : Option Nat :=
  let before := (text.takeWhile isBlank).length
  match text.drop before with
  | mark :: rest =>
      if mark == '=' || mark == ':' then
        some (before + 1 + (rest.takeWhile isBlank).length)
      else none
  | [] => none

/-- The value that is given to a secret name, up to a blank or a comma. -/
def assignment : Pattern :=
  { opening? := fun before text =>
      let name := text.takeWhile isNameChar
      if isBoundary before &&
          secretNames.any fun secret => endsWith secret.toList name then
        (assignmentMark? (text.drop name.length)).map (name.length + ·)
      else none
    extent := fun text =>
      (text.takeWhile fun character =>
        !isBlank character && character != ',').length }

/-- The kinds of secrets in the order of the searches. -/
def patterns : List Pattern := [authorization, bearer, basic, assignment]

/-- What a secret is replaced with if nothing else is given. -/
def usualReplacement : String := "[REDACTED]"

/-- Replaces the secrets of a text. -/
def redactWith (replacement text : String) : String :=
  String.ofList (patterns.foldl
    (fun text pattern => pattern.replace replacement.toList none text) text.toList)

/-- Replaces the secrets of a text with the usual mark. -/
def redact (text : String) : String :=
  redactWith usualReplacement text

/-- The headers whose values are secret. -/
def secretHeaders : List String :=
  ["authorization", "proxy-authorization", "cookie", "set-cookie"]

/-- The parts of names of headers whose values are secret. -/
def secretHeaderParts : List String := ["token", "api-key", "secret"]

/-- The value of a header is secret. -/
def isSensitiveHeader (name : String) : Bool :=
  let name := lower (trimmed name)
  secretHeaders.contains name ||
    secretHeaderParts.any fun part => contains name.toList part.toList

end RequestFlow.Redaction
