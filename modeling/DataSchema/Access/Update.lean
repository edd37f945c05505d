import DataSchema.Access.Error
import DataSchema.Access.Shared

/-!
Reading and replacing the value at a path.

A replacement makes the containers on the path anew and shares all others. Missing and null containers
on the way are made, and a short array is padded with nulls up to a limit. New containers are numbered
beyond every number in the old value and in the replacement.
-/

namespace DataSchema.Shared

/-! ### Reading -/

/-- The part of a value that one step leads to. -/
def step? (value : Shared) : Step → Option Shared
  | .key name => value.member? name
  | .index i => value.item? i

/-- The part of a value that a path leads to. -/
def at? (value : Shared) : Path → Option Shared
  | [] => some value
  | step :: rest => (value.step? step).bind (·.at? rest)

/-! ### Numbers of containers -/

mutual

/-- The least number above those of all containers. -/
def bound : Shared → Nat
  | .array id items => max (id + 1) (itemsBound items)
  | .object id members => max (id + 1) (membersBound members)
  | _ => 0

def itemsBound : List Shared → Nat
  | [] => 0
  | x :: rest => max (bound x) (itemsBound rest)

def membersBound : List (String × Shared) → Nat
  | [] => 0
  | (_, x) :: rest => max (bound x) (membersBound rest)

end

/-! ### Replacing -/

/-- How many nulls a replacement puts at most between the end of an array and its index. -/
def maxPadding : Nat := 4096

/-- The members to change: those of an object, or none where there is nothing yet. -/
def membersToChange : Option Shared → Except AccessError (List (String × Shared))
  | none => .ok []
  | some .null => .ok []
  | some (.object _ members) => .ok members
  | some other => .error (.notAContainer [] other.kindName)

/-- The elements to change: those of an array, or none where there is nothing yet. -/
def itemsToChange : Option Shared → Except AccessError (List Shared)
  | none => .ok []
  | some .null => .ok []
  | some (.array _ items) => .ok items
  | some other => .error (.notAContainer [] other.kindName)

/-- The elements with enough nulls behind them for the index. -/
def padded (items : List Shared) (index : Nat) : Except AccessError (List Shared) :=
  if index > items.length + maxPadding then .error (.indexTooFar [.index index] index items.length)
  else .ok (items ++ List.replicate (index + 1 - items.length) .null)

/-- Puts a value at a path of what there is; the containers on the path are numbered from `fresh` on. -/
def place (fresh : Nat) : Path → Option Shared → Shared → Except AccessError Shared
  | [], _, value => .ok value
  | .key name :: rest, current, value => do
    let members ← membersToChange current
    let child ← (place (fresh + 1) rest (Entries.get? members name) value).mapError (·.under (.key name))
    return .object fresh (Entries.put members name child)
  | .index i :: rest, current, value => do
    let items ← itemsToChange current
    let items ← padded items i
    let child ← (place (fresh + 1) rest items[i]? value).mapError (·.under (.index i))
    return .array fresh (items.set i child)

/-- The root with a value at a path. -/
def replace (root : Shared) (path : Path) (value : Shared) : Except AccessError Shared :=
  place (max root.bound value.bound) path (some root) value

/-! ### What two versions share -/

mutual

/-- The containers of a value in order, each before its parts, with whether it is the container at the
same place of an older value. A shared container is not entered. -/
def survey (old : Option Shared) : Shared → List (Path × Bool)
  | .array id items =>
    if old.any (·.sharesWith (.array id [])) then [([], true)]
    else ([], false) :: surveyItems old 0 items
  | .object id members =>
    if old.any (·.sharesWith (.object id [])) then [([], true)]
    else ([], false) :: surveyMembers old members
  | _ => []

def surveyItems (old : Option Shared) (index : Nat) : List Shared → List (Path × Bool)
  | [] => []
  | x :: rest =>
    (survey (old.bind (·.item? index)) x).map (fun e => (.index index :: e.1, e.2)) ++
      surveyItems old (index + 1) rest

def surveyMembers (old : Option Shared) : List (String × Shared) → List (Path × Bool)
  | [] => []
  | (k, x) :: rest =>
    (survey (old.bind (·.member? k)) x).map (fun e => (.key k :: e.1, e.2)) ++
      surveyMembers old rest

end

/-- The places of the containers that a new version shares with the old one. -/
def sharedPlaces (old new : Shared) : List Path :=
  ((survey (some old) new).filter (·.2)).map (·.1)

/-- The places of the containers that a new version has made. -/
def copiedPlaces (old new : Shared) : List Path :=
  ((survey (some old) new).filter (!·.2)).map (·.1)

end DataSchema.Shared
