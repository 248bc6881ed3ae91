import FlowLint.Text.Blank
import FlowLint.Text.Split

/-! # Manifests

A manifest is a list of headers, one a line. A line that begins with a space continues the header
before it, unless a line that is no header stands in between. Of headers with the same key the last
one counts. The symbolic name ends at the first semicolon.
-/

namespace FlowLint.Bundle

open FlowLint.Text (splitAt trimChars dropBlanks)

/-- A line without the carriage return at its end, if it has one. -/
def dropReturn (line : List Char) : List Char :=
  if line.getLast? = some '\r' then line.dropLast else line

/-- The lines of a text. What ends with a line feed may also end with a carriage return before it; at
most one more is dropped, from any line. -/
def linesOf (pieces : List (List Char)) : List (List Char) :=
  match pieces with
  | [] => []
  | [last] => if last = [] then [] else [dropReturn last]
  | line :: rest => dropReturn (dropReturn line) :: linesOf rest

structure Header where
  key : List Char
  value : List Char
deriving Repr, DecidableEq, Inhabited

/-- The headers read so far, latest first, and whether the latest can be continued. -/
structure Headers where
  latest : List Header := []
  continuable : Bool := false
deriving Repr, DecidableEq, Inhabited

/-- Continues the latest header. -/
def Headers.extend (h : Headers) (more : List Char) : Headers :=
  match h.continuable, h.latest with
  | true, x :: rest => { h with latest := { x with value := x.value ++ more } :: rest }
  | _, _ => h

def header? (line : List Char) : Option Header :=
  match line.dropWhile (· ≠ ':') with
  | [] => none
  | _ :: value => some ⟨trimChars (line.takeWhile (· ≠ ':')), dropBlanks value⟩

def Headers.add (h : Headers) (line : List Char) : Headers :=
  match line with
  | ' ' :: more => h.extend more
  | line =>
    match header? line with
    | some x => ⟨x :: h.latest, true⟩
    | none => { h with continuable := false }

def Headers.ofText (text : String) : Headers :=
  (linesOf (splitAt '\n' text.toList)).foldl Headers.add {}

/-- The value of the last header with a key. -/
def Headers.value? (h : Headers) (key : String) : Option (List Char) :=
  (h.latest.find? (·.key = key.toList)).map (·.value)

/-- How an artifact is identified. -/
structure Manifest where
  symbolicName : String
  name : String
deriving Repr, DecidableEq, Inhabited

/-- A text without blanks at its ends, unless nothing is left. -/
def nonBlank? (cs : List Char) : Option String :=
  let trimmed := trimChars cs
  if trimmed = [] then none else some (String.ofList trimmed)

def noSymbolicName : String := "manifest has no Bundle-SymbolicName"

/-- The manifest that a text writes; without a name of its own the artifact is called by its symbolic
name. -/
def Manifest.parse? (text : String) : Option Manifest := do
  let headers := Headers.ofText text
  let declared ← headers.value? "Bundle-SymbolicName"
  let symbolicName ← nonBlank? (declared.takeWhile (· ≠ ';'))
  let name := (headers.value? "Bundle-Name" >>= nonBlank?).getD symbolicName
  return ⟨symbolicName, name⟩

end FlowLint.Bundle
