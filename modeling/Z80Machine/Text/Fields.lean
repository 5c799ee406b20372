/-! Cutting text into fields. -/

namespace Z80Machine.Text

def fields (isSeparator : Char → Bool) : List Char → List (List Char)
  | [] => [[]]
  | c :: rest =>
    match isSeparator c, fields isSeparator rest with
    | true, pieces => [] :: pieces
    | false, piece :: pieces => (c :: piece) :: pieces
    | false, [] => [[c]]

def cut? (separator : Char) : List Char → Option (List Char × List Char)
  | [] => none
  | c :: rest =>
    if c = separator then some ([], rest)
    else (cut? separator rest).map fun (before, behind) => (c :: before, behind)

end Z80Machine.Text
