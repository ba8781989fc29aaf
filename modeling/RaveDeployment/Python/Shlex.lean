import RaveDeployment.Python.Text

/-!
# shlex

`shlex.split` on a `str`: POSIX rules, no comments, words end at white space only.
-/

namespace Rave.Py

/-- The states of `shlex.read_token`. -/
inductive ShlexState where
  | blank
  | word
  | quoted (quote : Char)
  /-- After a backslash, with the quote it stands in. -/
  | escaped (quote : Option Char)
  deriving DecidableEq

def isShlexSpace (c : Char) : Bool :=
  c = ' ' || c = '\t' || c = '\r' || c = '\n'

def isQuote (c : Char) : Bool :=
  c = '\x27' || c = '"'

/-- The words from here on, with the word under construction and whether a part of it was quoted:
an empty word counts if it was. -/
def shlexFrom (state : ShlexState) (token : List Char) (quoted : Bool) :
    List Char → Except String (List (List Char))
  | [] =>
    match state with
    | .blank => .ok []
    | .word => .ok (if token = [] ∧ quoted = false then [] else [token])
    | .quoted _ => .error "No closing quotation"
    | .escaped _ => .error "No escaped character"
  | c :: cs =>
    match state with
    | .blank =>
      if isShlexSpace c then shlexFrom .blank [] false cs
      else if c = '\\' then shlexFrom (.escaped none) [] false cs
      else if isQuote c then shlexFrom (.quoted c) [] false cs
      else shlexFrom .word [c] false cs
    | .word =>
      if isShlexSpace c then
        if token = [] ∧ quoted = false then shlexFrom .blank [] false cs
        else (token :: ·) <$> shlexFrom .blank [] false cs
      else if isQuote c then shlexFrom (.quoted c) token quoted cs
      else if c = '\\' then shlexFrom (.escaped none) token quoted cs
      else shlexFrom .word (token ++ [c]) quoted cs
    | .quoted quote =>
      if c = quote then shlexFrom .word token true cs
      else if c = '\\' ∧ quote = '"' then shlexFrom (.escaped (some quote)) token true cs
      else shlexFrom (.quoted quote) (token ++ [c]) true cs
    | .escaped none => shlexFrom .word (token ++ [c]) quoted cs
    | .escaped (some quote) =>
      -- within quotes only the quote and the backslash itself can be escaped
      let kept := if c ≠ '\\' ∧ c ≠ quote then token ++ ['\\'] else token
      shlexFrom (.quoted quote) (kept ++ [c]) quoted cs

/-- `shlex.split(s)`. -/
def shlexSplit (s : List Char) : Except String (List (List Char)) :=
  shlexFrom .blank [] false s

example : shlexSplit "rave-webd --fd '3' \"a\\\"b\\c\" ''".toList =
    .ok ["rave-webd".toList, "--fd".toList, "3".toList, "a\"b\\c".toList, []] := by decide

end Rave.Py
