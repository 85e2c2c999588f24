import CfProxy.Services.Store

set_option autoImplicit false

namespace CfProxy.PairText

def quote : Char := '\x22'
def backslash : Char := '\x5c'

def opening : Str := "\x7b\"email\": \"".toList
def between : Str := "\", \"key\": \"".toList
def closing : Str := "\"\x7d".toList

-- What `json.dumps` writes for printable ASCII; it escapes all other characters as well.
def escapeChar (c : Char) : Str := if c = quote ∨ c = backslash then [backslash, c] else [c]

def escape (text : Str) : Str := text.flatMap escapeChar

def dumps (email key : Str) : Str := opening ++ escape email ++ between ++ escape key ++ closing

def readString : (escaped : Bool) → Str → Option (Str × Str)
  | _, [] => none
  | true, c :: rest => (readString false rest).map fun (text, after) => (c :: text, after)
  | false, c :: rest =>
    if c = quote then some ([], c :: rest)
    else if c = backslash then readString true rest
    else (readString false rest).map fun (text, after) => (c :: text, after)

def expect : Str → Str → Option Str
  | [], text => some text
  | _ :: _, [] => none
  | expected :: more, c :: rest => if expected = c then expect more rest else none

def readPair (text : Str) : Option (Str × Str) := do
  let text ← expect opening text
  let (email, text) ← readString false text
  let text ← expect between text
  let (key, text) ← readString false text
  if text = closing then some (email, key) else none

def loads (text : Str) : Except PyError Json :=
  match readPair text with
  | some (email, key) => .ok (.obj [("email".toList, .str email), ("key".toList, .str key)])
  | none => .error (.valueError "Expecting value".toList)

theorem expect_append (expected rest : Str) : expect expected (expected ++ rest) = some rest := by
  induction expected with
  | nil => rfl
  | cons c more ih =>
    rw [List.cons_append, expect, if_pos rfl]
    exact ih

theorem readString_escape (text rest : Str) :
    readString false (escape text ++ quote :: rest) = some (text, quote :: rest) := by
  induction text with
  | nil => simp [escape, readString]
  | cons c text ih =>
    have first : escape (c :: text) ++ quote :: rest = escapeChar c ++ (escape text ++ quote :: rest) := by
      simp [escape]
    have other : backslash ≠ quote := by decide
    rw [first, escapeChar]
    split
    next => simp [readString, other, ih]
    next plain =>
      obtain ⟨notQuote, notBackslash⟩ := not_or.mp plain
      simp [readString, notQuote, notBackslash, ih]

theorem readPair_dumps (email key : Str) : readPair (dumps email key) = some (email, key) := by
  have afterEmail (rest : Str) : between ++ rest = quote :: (between.tail ++ rest) := rfl
  have afterKey : closing = quote :: closing.tail := rfl
  have readEmail (rest : Str) : readString false (escape email ++ (between ++ rest)) = some (email, between ++ rest) := by
    rw [afterEmail]
    exact readString_escape email _
  have readKey : readString false (escape key ++ closing) = some (key, closing) := by
    rw [afterKey]
    exact readString_escape key _
  simp [readPair, dumps, expect_append, readEmail, readKey]

-- `json.dumps` and `json.loads` as far as the pairs go.
def pairJson : PairJson where
  dumps := dumps
  loads := loads
  roundTrip email key := by rw [loads, readPair_dumps]

end CfProxy.PairText
