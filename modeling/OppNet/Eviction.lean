import OppNet.Packet.Entry

/-!
# OppNet.Eviction

Which entry a full buffer gives up. A policy is a rule that picks one entry among those it may pick
from, and says whether packets created here are spared while something else can go.
-/

namespace OppNet

inductive VictimRule where
  | front
  | tail
  | oldest
  | youngest
  deriving DecidableEq, Repr

namespace VictimRule

def lastIndex? (p : Entry → Bool) (entries : List Entry) : Option Nat :=
  (entries.reverse.findIdx? p).map fun i => entries.length - 1 - i

/-- The best creation time so far and its index, against the entry at `i`. -/
def improve (better : Time → Time → Bool) (best : Option (Nat × Time)) (i : Nat) (t : Time) :
    Option (Nat × Time) :=
  match best with
  | some (_, current) => if better t current then some (i, t) else best
  | none => some (i, t)

/-- The first eligible entry whose creation time no eligible one beats. -/
def firstExtreme? (better : Time → Time → Bool) (eligible : Entry → Bool) (entries : List Entry) :
    Option Nat :=
  let step := fun best (e, i) =>
    if eligible e then improve better best i e.created else best
  (entries.zipIdx.foldl step none).map (·.1)

def select? (rule : VictimRule) (eligible : Entry → Bool) (entries : List Entry) : Option Nat :=
  match rule with
  | front => entries.findIdx? eligible
  | tail => lastIndex? eligible entries
  | oldest => firstExtreme? (fun s t => s < t) eligible entries
  | youngest => firstExtreme? (fun s t => t < s) eligible entries

def all : List VictimRule := [front, tail, oldest, youngest]

def name : VictimRule → String
  | front => "front"
  | tail => "tail"
  | oldest => "oldest"
  | youngest => "youngest"

end VictimRule

structure EvictionPolicy where
  rule : VictimRule
  /-- Relayed entries go first. -/
  sparesSource : Bool
  deriving DecidableEq, Repr

/-- Evictions so far, by whether the entry was created here or carried for another node. -/
structure EvictionTally where
  source : Nat := 0
  relayed : Nat := 0
  deriving DecidableEq, Repr

namespace EvictionTally

def total (t : EvictionTally) : Nat := t.source + t.relayed

def add (victim : Entry) (t : EvictionTally) : EvictionTally :=
  if victim.isRelayed then { t with relayed := t.relayed + 1 }
  else { t with source := t.source + 1 }

end EvictionTally

namespace EvictionPolicy

def all : List EvictionPolicy :=
  [false, true].flatMap fun spares => VictimRule.all.map fun rule => ⟨rule, spares⟩

/-- The name of the policy in scenarios; the ending stands for "avoid source packets". -/
def name (policy : EvictionPolicy) : String :=
  "drop_" ++ policy.rule.name ++ (if policy.sparesSource then "_asp" else "")

/-- The index of the entry to give up. -/
def victimIndex? (policy : EvictionPolicy) (entries : List Entry) : Option Nat :=
  let anyEntry := policy.rule.select? (fun _ => true) entries
  if policy.sparesSource then
    (policy.rule.select? Entry.isRelayed entries).or anyEntry
  else anyEntry

/-- The entry that is given up, and the ones left in their order. -/
def evict (policy : EvictionPolicy) (entries : List Entry) : Except Fault (Entry × List Entry) :=
  match policy.victimIndex? entries with
  | none => .error .emptyBufferEviction
  | some i =>
    match entries[i]? with
    | none => .error .emptyBufferEviction
    | some victim => .ok (victim, entries.eraseIdx i)

end EvictionPolicy

end OppNet
