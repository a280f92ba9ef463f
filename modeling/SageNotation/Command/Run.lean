import SageNotation.Command.Check
import SageNotation.Command.Help
import SageNotation.Document.Tree
import SageNotation.Highlight.Terminal

/-!
Running a request on a tree of files.
-/

namespace SageNotation

def versionText : String := "0.1.0"

namespace Token

/-- A token in a listing: where it starts, its kind and its value. -/
def listing (token : Token) : String :=
  toString token.span.start.line ++ ":" ++ toString token.span.start.col ++ " " ++
    token.kind.name ++ " " ++ Text.quoted token.value ++ "\n"

end Token

namespace Report

def onFile (tree : FileTree) (file : String) (report : String → Report) : Report :=
  match (tree.bytes? (Path.ofString file).toString).bind FileTree.decode? with
  | some text => report text
  | none => failed (.notUtf8 file)

def parse (file : String) (json spans : Bool) (text : String) : Report :=
  let tokens := Token.tokenize text file
  let document := Document.ofTokens tokens (some file)
  withNotes ((Document.recoveries tokens).map Note.ofRecovery)
    (printed
      (if json then (document.toData spans).pretty ++ "\n" else document.toTree.outline))

def tokens (file text : String) : Report :=
  printed (String.join ((Token.tokenize text file).map Token.listing))

/-- A report on something that this program does not offer. -/
def unavailable (what : String) : Report :=
  refused 1 ("error: " ++ what ++ " is not available")

def ofCommand (tree : FileTree) : Command → Report
  | .check path strict => check tree path strict
  | .parse file json spans => onFile tree file (parse file json spans)
  | .tokens file => onFile tree file (tokens file)
  | .highlight file page =>
      if page then unavailable "a standalone page"
      else onFile tree file fun text => printed (Highlight.colored text)
  | .lsp => unavailable "the language server"

def ofRequest (tree : FileTree) : Request → Report
  | .version => printed ("sage, version " ++ versionText ++ "\n")
  | .help subject => printed (Help.page subject ++ "\n")
  | .nothing => refused 2 (Help.page none)
  | .run verbose command =>
      if verbose then ofCommand tree command else (ofCommand tree command).quiet

def ofRefusal : Refusal → Report
  | .usage subject problem => refused 2 (Help.complaint subject problem)
  | .unusableName name => failed (.unusableName name)

end Report

def run (tree : FileTree) (arguments : List String) : Report :=
  match Request.ofArguments tree arguments with
  | .ok request => .ofRequest tree request
  | .error refusal => .ofRefusal refusal

end SageNotation
