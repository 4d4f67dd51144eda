import TurbineProxy.Text

/-!
# Query classification

The text predicates that routing decisions rest on: the intent classifier, the `sticky_backend` hint,
the session-pinning tests of the MySQL session loop and the cacheability test. None of them parses
SQL; each is a test on prefixes and substrings, and they are kept apart here exactly as the source
keeps them apart, because they do not agree with each other on every spelling of a statement.
-/

namespace TurbineProxy

open Str

/-- The intent of a query for routing purposes. -/
inductive QueryIntent : Type where
  /-- `SELECT`: may go to a replica -/
  | read
  /-- DML and DDL: goes to the primary -/
  | write
  /-- transaction control -/
  | transaction
  /-- everything else, routed to the primary -/
  | other
  deriving DecidableEq, Repr

/-- Case-insensitive ASCII prefix match. -/
def startsWithKw (s : Str) (kw : String) : Bool := startsWith (toAsciiUppercase s) kw

/-- Case-insensitive ASCII substring scan. -/
def containsKw (s : Str) (kw : String) : Bool := contains (toAsciiUppercase s) kw

/-- The loop of `skip_leading_comments`. Every round that continues drops at least the two
characters of a comment opener, so the length of the text is enough fuel. -/
def skipLeadingCommentsLoop : Nat → Str → Str
  | 0, s => s
  | n + 1, s =>
    let s := trimStart s
    match (if startsWith s "/*" then splitFirst "*/".toList s else none) with
    | some (_, rest) => skipLeadingCommentsLoop n rest
    | none =>
      match (if startsWith s "--" then splitFirst "\n".toList s else none) with
      | some (_, rest) => skipLeadingCommentsLoop n rest
      | none => s

/-- Skip leading block and line comments. -/
def skipLeadingComments (s : Str) : Str := skipLeadingCommentsLoop (s.length + 1) s

/-- The keywords that make a statement a write. -/
def writeKeywords : List String :=
  ["INSERT", "UPDATE", "DELETE", "REPLACE", "CREATE", "ALTER", "DROP", "TRUNCATE", "RENAME", "LOAD",
   "GRANT", "REVOKE"]

/-- The keywords that make a statement transaction control. -/
def transactionKeywords : List String :=
  ["BEGIN", "START TRANSACTION", "COMMIT", "ROLLBACK", "SAVEPOINT", "RELEASE SAVEPOINT", "XA "]

/-- Classify a statement into a routing intent. -/
def classify (sql : Str) : QueryIntent :=
  let effective := skipLeadingComments (trimStart sql)
  if startsWithKw effective "SELECT" || startsWithKw effective "(SELECT" then
    if containsKw sql "FOR UPDATE" || containsKw sql "FOR SHARE" then .write else .read
  else if writeKeywords.any (startsWithKw effective) then .write
  else if transactionKeywords.any (startsWithKw effective) then .transaction
  else .other

example : classify "/* app */ begin".toList = .transaction := by decide
example : classify "START  TRANSACTION".toList = .other := by decide

/-- What a block comment says about stickiness: the character after `sticky_backend=`. -/
def hintOf (comment : Str) : Option Bool :=
  match splitFirst "STICKY_BACKEND=".toList (toAsciiUppercase comment) with
  | none => none
  | some (before, _) =>
    -- the value is read from the comment as written; ASCII case keeps positions
    let after := trimStart (comment.drop (before.length + 15))
    if startsWith after "1" then some true
    else if startsWith after "0" then some false
    else none

/-- The scan of `extract_sticky_hint`; every round drops at least one character. -/
def extractStickyHintLoop : Nat → Str → Option Bool
  | 0, _ => none
  | n + 1, s =>
    match s with
    | [] => none
    | _ :: rest =>
      match (if startsWith s "/*" then splitFirst "*/".toList (s.drop 2) else none) with
      | some (comment, after) =>
        match hintOf comment with
        | some v => some v
        | none => extractStickyHintLoop n after
      | none => extractStickyHintLoop n rest

/-- The `sticky_backend` hint of a statement: the first block comment that sets it wins. -/
def extractStickyHint (sql : Str) : Option Bool := extractStickyHintLoop (sql.length + 1) sql

/-! ## Session state detection -/

/-- Statements whose session state cannot be replayed on another connection. -/
def needsHardPin (sql : Str) : Bool :=
  let upper := toUppercase (trimStart sql)
  if startsWith upper "SET" && contains upper "@" && !contains upper "@@" then true
  else if !startsWith upper "SET" && contains upper ":=" && contains upper "@" then true
  else startsWith upper "LOCK TABLES"

/-- Session-state statements that are replayed on every fresh connection. -/
def isReplayableSessionStmt (sql : Str) : Bool :=
  let upper := toUppercase (trimStart sql)
  if !startsWith upper "SET" then false
  else !(contains upper "@" && !contains upper "@@")

/-! ## Cacheability -/

/-- The functions and markers that make a `SELECT` uncacheable. -/
def nonDeterministic : List String :=
  ["NOW()", "SYSDATE()", "CURRENT_TIMESTAMP", "RAND()", "UUID()", "LAST_INSERT_ID()", "@"]

/-- Whether a statement's result may be cached. -/
def isCacheable (sql : Str) : Bool :=
  let upper := toUppercase sql
  if !startsWith (trimStart upper) "SELECT" then false
  else if contains upper "FOR UPDATE" || contains upper "FOR SHARE" then false
  else !nonDeterministic.any (contains upper)

end TurbineProxy
