import SqliteSchema.DelimiterScan

/-!
Two dashes outside quotes start a comment that reaches to the end of its line.
A comment is removed and the newline that ends it stays.
-/
namespace SqliteSchema.CommentStripping

open PlainText DelimiterScan

/-- Inside a comment every character up to the newline is dropped, and the scan
for quotes stands still. -/
def commentsDropped (scan : Scan) (inComment : Bool) : Text → Text
  | [] => []
  | c :: rest =>
      if inComment && c != '\n' then commentsDropped scan true rest
      else if c = '-' ∧ rest.head? = some '-' ∧ scan.insideRun = false then
        commentsDropped scan true rest
      else c :: commentsDropped (scan.step c) false rest

def withoutComments (source : Text) : Text := commentsDropped start false source

end SqliteSchema.CommentStripping
