import HostapdGrpc.Go.Strings

/-!
# Lexical paths

`path.Clean` and `path.Join` as documented: repeated slashes and `.` elements go away,
`..` takes the element before it, and a rooted path does not climb above its root.
-/

namespace HostapdGrpc.Go.Path

abbrev slash : UInt8 := 47
def dot : GoString := lit "."
def dotdot : GoString := lit ".."

/-- One element of the path against the cleaned elements before it, last one first. -/
def push (rooted : Bool) (done : List GoString) (elem : GoString) : List GoString :=
  if elem = [] ∨ elem = dot then done
  else if elem = dotdot then
    match done with
    | last :: before => if last = dotdot then dotdot :: done else before
    | [] => if rooted then [] else [dotdot]
  else elem :: done

def isRooted (p : GoString) : Bool := p.head? == some slash

/-- The elements of the cleaned path. -/
def elements (p : GoString) : List GoString :=
  ((p.splitOn slash).foldl (push (isRooted p)) []).reverse

/-- `path.Clean` -/
def clean (p : GoString) : GoString :=
  let body := [slash].intercalate (elements p)
  if isRooted p then slash :: body else if body = [] then dot else body

/-- `path.Join` of two elements: empty ones in front are skipped. -/
def join (dir name : GoString) : GoString :=
  if dir ≠ [] then clean (dir ++ slash :: name)
  else if name ≠ [] then clean name
  else []

end HostapdGrpc.Go.Path
