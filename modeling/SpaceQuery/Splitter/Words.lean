import SpaceQuery.Lib.RustText

/-!
The words and characters of SQL text that the statement splitter asks about, from
`sql_text.rs`. Text is a list of characters, and a word in capitals is a string.
-/

namespace SpaceQuery.SqlText

open RustText

/-! ### Keywords -/

def matchesKeyword (keyword : List Char) (candidates : List String) : Bool :=
  candidates.any (eqIgnoreAsciiCase keyword ·)

def withMainQueryKeywords : List String :=
  ["WITH", "SELECT", "INSERT", "UPDATE", "DELETE", "MERGE", "CALL", "VALUES", "TABLE", "SEARCH",
    "CYCLE"]

def withPlsqlDeclarationKeywords : List String :=
  ["FUNCTION", "PROCEDURE", "PACKAGE", "TYPE"]

def withNonPlsqlClauseKeywords : List String :=
  ["READ", "CHECK", "NO", "DATA", "TIES", "CONSTRAINT", "ROWID", "SEQUENCE", "COMMIT", "SCN",
    "OBJECT", "PRIMARY", "REDUCED", "OIDS", "LOCAL", "CASCADED", "GRANT", "ADMIN", "DELEGATE",
    "HIERARCHY"]

def externalLanguageTargetKeywords : List String :=
  ["C", "JAVA", "JAVASCRIPT", "PYTHON", "R", "RUST", "WASM", "MLE"]

def externalLanguageClauseKeywords : List String :=
  ["EXTERNAL", "LANGUAGE", "NAME", "LIBRARY", "MODULE", "SIGNATURE", "ENV", "ENVIRONMENT",
    "AGENT", "CREDENTIAL", "PARAMETERS", "CALLING", "WITH", "IMPORT", "IMPORTS", "EXPORT",
    "EXPORTS"]

def sqlplusSetOptionKeywords : List String :=
  ["APPINFO", "ARRAYSIZE", "AUTOCOMMIT", "AUTOPRINT", "AUTORECOVERY", "AUTOTRACE",
    "BLOCKTERMINATOR", "CMDSEP", "COLINVISIBLE", "COLSEP", "CONCAT", "COPYCOMMIT",
    "COPYTYPECHECK", "DEFINE", "DESCRIBE", "ECHO", "EDITFILE", "EMBEDDED", "ESCAPE", "FEEDBACK",
    "FLAGGER", "FLUSH", "HEADING", "HEADSEP", "INSTANCE", "LINESIZE", "LOBOFFSET", "LONG",
    "LONGCHUNKSIZE", "MARKUP", "NEWPAGE", "NULL", "NUMFORMAT", "NUMWIDTH", "PAGESIZE", "PAUSE",
    "RECSEP", "RECSEPCHAR", "ROWLIMIT", "SERVEROUTPUT", "SHIFTINOUT", "SHOWMODE", "SQLBLANKLINES",
    "SQLCASE", "SQLCONTINUE", "SQLFORMAT", "SQLNUMBER", "SQLPLUSCOMPATIBILITY", "SQLPREFIX",
    "SQLPROMPT", "SQLTERMINATOR", "SUFFIX", "TAB", "TERMOUT", "TIMING", "TRIMOUT", "TRIMSPOOL",
    "UNDERLINE", "VERIFY", "WRAP"]

def statementHeadKeywords : List String :=
  ["DECLARE", "BEGIN", "WITH", "SELECT", "INSERT", "UPDATE", "DELETE", "MERGE", "CALL", "CREATE",
    "ALTER", "DROP", "TRUNCATE", "RENAME", "PURGE", "FLASHBACK", "RECOVER", "SAVEPOINT", "LOCK",
    "COMMIT", "ROLLBACK", "GRANT", "REVOKE", "VALUES", "TABLE", "EXPLAIN", "ANALYZE",
    "ADMINISTER", "ARCHIVE", "COMMENT", "SET", "SHOW", "USE", "DESCRIBE", "DESC", "EXEC",
    "EXECUTE", "VARIABLE", "VAR", "PRINT", "START", "STARTUP", "SPOOL", "DEFINE", "UNDEFINE",
    "CONNECT", "CONN", "DISCONNECT", "DISC", "WHENEVER", "STORE", "GET", "SAVE", "PROMPT", "RUN",
    "R", "REM", "REMARK", "ACCEPT", "PAUSE", "COLUMN", "BREAK", "CLEAR", "COMPUTE", "EXIT",
    "QUIT", "SHUTDOWN", "HOST", "TIMING", "TTITLE", "BTITLE", "REPHEADER", "REPFOOTER",
    "PASSWORD", "PASSW", "PASSWO", "PASSWOR", "AUDIT", "NOAUDIT", "ASSOCIATE", "DISASSOCIATE"]

variable (word : String)

def isWithMainQueryKeyword : Bool := withMainQueryKeywords.contains word

def isWithPlsqlDeclarationKeyword : Bool :=
  withPlsqlDeclarationKeywords.contains word

def withPlsqlDeclarationStartsRoutineBody : Bool :=
  word matches "FUNCTION" | "PROCEDURE" | "PACKAGE"

def isWithNonPlsqlClauseKeyword : Bool := withNonPlsqlClauseKeywords.contains word

def isExternalLanguageTargetKeyword : Bool :=
  externalLanguageTargetKeywords.contains word

def isExternalLanguageClauseKeyword : Bool :=
  externalLanguageClauseKeywords.contains word

def isPasswordCommandKeywordUpper : Bool :=
  word matches "PASSW" | "PASSWO" | "PASSWOR" | "PASSWORD"

/-- `is_statement_head_keyword`, on a word in capitals. -/
def isStatementHeadKeyword : Bool :=
  statementHeadKeywords.contains word || isPasswordCommandKeywordUpper word

def isSqlplusSetOptionKeyword (word : List Char) : Bool :=
  matchesKeyword word sqlplusSetOptionKeywords

/-! ### Characters -/

section

variable [UnicodeClasses]

def isIdentifierChar (c : Char) : Bool := isAlphanumeric c || c = '_' || c = '$' || c = '#'

def isIdentifierStartChar (c : Char) : Bool := isAlphabetic c || c = '_' || c = '$' || c = '#'

end

/-- `is_identifier_byte`: no byte of a character beyond ASCII is one. -/
def isIdentifierByte (c : Char) : Bool := c.isAlphanum || c = '_' || c = '$' || c = '#'

def isValidQQuoteDelimiter (delimiter : Char) : Bool :=
  !isWhitespace delimiter && delimiter ≠ '\''

def qQuoteClosing (delimiter : Char) : Char :=
  match delimiter with
  | '[' => ']'
  | '(' => ')'
  | '{' => '}'
  | '<' => '>'
  | other => other

/-! ### Words of a line -/

/-- Whether a line comment starts at `text`, with the character before it. -/
def sqlLineCommentPrefixLen (before : Option Char) (text : List Char) : Option ℕ :=
  match text with
  | '-' :: '-' :: _ => some 2
  | '#' :: _ => if before.all (!isIdentifierByte ·) then some 1 else none
  | _ => none

/-- A word up to white space or a comment, with the text behind it. -/
def takeWord (before : Option Char) : List Char → List Char × List Char
  | [] => ([], [])
  | c :: text =>
    if isWhitespace c || "/*".toList.isPrefixOf (c :: text)
        || (sqlLineCommentPrefixLen before (c :: text)).isSome then ([], c :: text)
    else
      let (word, rest) := takeWord (some c) text
      (c :: word, rest)

/-- The next word that is not in a comment, with the text behind it. The two functions of
this name differ in what they make of a line comment: it ends the search, or the search
goes on in the next line. -/
def nextMeaningfulWordLoop (lineCommentEnds : Bool) :
    ℕ → Option Char → List Char → Option (List Char × List Char)
  | 0, _, _ => none
  | _ + 1, _, [] => none
  | fuel + 1, before, c :: text =>
    match sqlLineCommentPrefixLen before (c :: text) with
    | some len =>
      if lineCommentEnds then none
      else
        (afterFind ['\n'] ((c :: text).drop len)).bind
          (nextMeaningfulWordLoop lineCommentEnds fuel (some '\n'))
    | none =>
      match stripPrefix "/*".toList (c :: text) with
      | some body =>
        (afterFind "*/".toList body).bind (nextMeaningfulWordLoop lineCommentEnds fuel (some '/'))
      | none =>
        if isWhitespace c then nextMeaningfulWordLoop lineCommentEnds fuel (some c) text
        else some (takeWord before (c :: text))

/-- `next_meaningful_word` of the engine, behind the character `before`. -/
def nextMeaningfulWord (before : Option Char) (text : List Char) : Option (List Char × List Char) :=
  nextMeaningfulWordLoop false text.length before text

variable (line : List Char)

/-- `next_meaningful_word` of `sql_text.rs`. -/
def nthMeaningfulWord (skipWords : ℕ) : Option (List Char) :=
  loop skipWords none line
where
  loop : ℕ → Option Char → List Char → Option (List Char)
    | 0, before, text => (nextMeaningfulWordLoop true text.length before text).map Prod.fst
    | n + 1, before, text =>
      (nextMeaningfulWordLoop true text.length before text).bind fun (word, rest) =>
        loop n word.getLast? rest

def firstMeaningfulWord : Option (List Char) := nthMeaningfulWord line 0

/-! ### Lines -/

def isSqlplusRemarkCommentLine : Bool :=
  (firstWord (trimStart line)).any fun first =>
    eqIgnoreAsciiCase first "REM" || eqIgnoreAsciiCase first "REMARK"

/-- The keywords of SQL*Plus commands that end with their line. -/
def autoTerminatedKeywords : List String :=
  ["DISC", "DISCONNECT", "CONN", "RUN", "EXIT", "QUIT", "STARTUP", "SHUTDOWN", "RECOVER",
    "ARCHIVE", "HOST", "TIMING", "TTITLE", "BTITLE", "REPHEADER", "REPFOOTER", "PROMPT", "REM",
    "REMARK", "SPOOL", "STORE", "GET", "SAVE", "DESCRIBE", "DESC", "DEFINE", "UNDEFINE",
    "VARIABLE", "VAR", "PRINT", "ACCEPT", "PAUSE", "WHENEVER", "COLUMN", "BREAK", "CLEAR",
    "COMPUTE"]

def isAutoTerminatedToolCommand : Bool :=
  let trimmed := trim line
  if trimmed.isEmpty then false
  else if trimmed.head? = some '@' || trimmed.head? = some '!' then true
  else
    match nthMeaningfulWord trimmed 0 with
    | none => false
    | some first =>
      let second := nthMeaningfulWord trimmed 1
      match asciiUppercase first with
      | "START" => second.any (!eqIgnoreAsciiCase · "WITH")
      | "R" => second.isNone
      | "CONNECT" => second.any (!eqIgnoreAsciiCase · "BY")
      | "SET" => second.any isSqlplusSetOptionKeyword
      | "SHOW" => second.isSome
      | "PASSW" | "PASSWO" | "PASSWOR" | "PASSWORD" => true
      | "EXEC" | "EXECUTE" =>
        -- the tail is cut by the length of the word, wherever the word stands
        let tail := trim ((getFromByte first.length trimmed).getD [])
        !(stripPrefix [':'] tail).any fun bindName =>
          !bindName.isEmpty && bindName.all isIdentifierByte
      | word => autoTerminatedKeywords.contains word

end SpaceQuery.SqlText
