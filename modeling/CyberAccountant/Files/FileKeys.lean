import CyberAccountant.Ledger.Accounts

/-! The keys under which files of an organisation stand in the object storage. -/

namespace CyberAccountant.Files

open CyberAccountant.Ledger

/-- The characters that `sanitize_filename` leaves alone. -/
def isSafe (c : Char) : Bool := c.isAlphanum || c = '.' || c = '_' || c = '-'

/-- Each byte of any other character becomes an underscore. -/
def sanitizeFilename (filename : String) : String :=
  if filename = "" then "file"
  else .ofList (filename.toList.flatMap fun c => if isSafe c then [c] else List.replicate c.utf8Size '_')

/-- `uuid` is the one that the call draws. -/
def orgKey (org kind : String) (uuid : Uuid) (filename : String) : String :=
  "org/" ++ org ++ "/" ++ kind ++ "/" ++ toString uuid ++ "-" ++ sanitizeFilename filename

def versionKey (org kind version filename : String) : String :=
  "org/" ++ sanitizeFilename org ++ "/" ++ sanitizeFilename kind ++ "/" ++ sanitizeFilename version ++ "/" ++
    sanitizeFilename filename

end CyberAccountant.Files
