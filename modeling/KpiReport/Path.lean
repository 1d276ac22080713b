/-!
# Paths

A path is a row of segments with slashes between them. Paths of files are written in characters and
those of requests in bytes, so the two marks that matter, the slash and the dot, are arguments here.

Several paths lead to one place: an empty segment and a single dot change nothing, and two dots take
back the segment before them. `Path.clean` gives the shortest of them.
-/

namespace KpiReport.Path

variable {α : Type} [DecidableEq α]

/-- Leaves out empty segments and dots. Two dots take back the segment before them; at the start
of a path they stay, unless it starts at the root, above which there is nothing. -/
def reduce (dot : α) (rooted : Bool) : (acc segments : List (List α)) → List (List α)
  | acc, [] => acc.reverse
  | acc, s :: r =>
    if s = [] || s = [dot] then reduce dot rooted acc r
    else if s = [dot, dot] then
      match acc with
      | [] => if rooted then reduce dot rooted [] r else reduce dot rooted [s] r
      | a :: as =>
        if a = [dot, dot] then reduce dot rooted (s :: a :: as) r else reduce dot rooted as r
    else reduce dot rooted (s :: acc) r

/-- The shortest path that leads to the same place, from the root or from where one is. -/
def clean (slash dot : α) (rooted : Bool) (path : List α) : List α :=
  let short := [slash].intercalate (reduce dot rooted [] (path.splitOn slash))
  if rooted then slash :: short else if short.isEmpty then [dot] else short

end KpiReport.Path
