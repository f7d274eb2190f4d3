import ReleaseStamp.Text.Lines

/-!
The text of a pre-commit script. The program owns the blocks between its two
marker lines; every other line belongs to the user. Installing appends one
block after the user's lines, uninstalling leaves the user's lines alone.
-/
namespace ReleaseStamp.Hook

def beginMark : List Char := "# >>> lockstamp pre-commit >>>".toList

def endMark : List Char := "# <<< lockstamp pre-commit <<<".toList

/-- The block that the program writes: it stamps the tag if one is set. -/
def block : List Char :=
  beginMark ++ "\nif [ -n \"$\x7bLOCKSTAMP_TAG:-\x7d\" ]; then\n  lockstamp patch --stage || exit 1\nfi\n".toList ++
    endMark ++ ['\n']

/-- The start of a script that the program creates. -/
def shebang : List Char := "#!/bin/sh".toList

def isBegin (line : List Char) : Bool := Text.trim line == beginMark

def isEnd (line : List Char) : Bool := Text.trim line == endMark

/-- The lines outside the blocks; `inside` tells whether a block is open before
    the first of them. A block that no line closes goes on to the end. -/
def outside (inside : Bool) : List (List Char) → List (List Char)
  | [] => []
  | line :: rest =>
    if isBegin line then outside true rest
    else if inside then outside (!isEnd line) rest
    else line :: outside false rest

def stripBlocks (text : List Char) : List Char := Text.joinLines (outside false (Text.lines text))

/-- The text mentions the mark of a block. -/
def marked (text : List Char) : Bool := Text.contains beginMark text

/-- A line that a script without blocks would not miss: blank, or a shebang. -/
def isIdle (line : List Char) : Bool := Text.trim line == [] || ['#', '!'].isPrefixOf line

/-- Some line of the text is worth keeping. -/
def meaningful (text : List Char) : Bool := (Text.lines text).any (!isIdle ·)

/-- The text with one block after it. -/
def withBlock (text : List Char) : List Char := Text.trimEnd text ++ ['\n', '\n'] ++ block

/-- What an installation found and did. -/
inductive Installed where
  | created
  | appended
  | replaced
  | already
deriving DecidableEq, Repr

/-- What an uninstallation found and did. -/
inductive Uninstalled where
  | deleted
  | stripped
  | notInstalled
deriving DecidableEq, Repr

inductive Edit where
  | keep
  | write (text : List Char)
  | delete
deriving DecidableEq, Repr

/-- Installing into a script, or where there is none. Without force a script
    that mentions the mark is left alone. -/
def install (force : Bool) : Option (List Char) → Installed × Edit
  | none => (.created, .write (withBlock shebang))
  | some text =>
    if marked text then
      if force then (.replaced, .write (withBlock (stripBlocks text))) else (.already, .keep)
    else (.appended, .write (withBlock text))

/-- Uninstalling from a script, or where there is none. -/
def uninstall : Option (List Char) → Uninstalled × Edit
  | none => (.notInstalled, .keep)
  | some text =>
    if marked text then
      if meaningful (stripBlocks text) then
        (.stripped, .write (Text.trimEnd (stripBlocks text) ++ ['\n']))
      else (.deleted, .delete)
    else (.notInstalled, .keep)

end ReleaseStamp.Hook
