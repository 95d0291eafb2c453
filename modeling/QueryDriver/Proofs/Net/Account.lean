import QueryDriver.Net.Connection
import QueryDriver.Proofs.Effect
import QueryDriver.Proofs.Net.Ledger

/-!
# What has become of lines and queries

A round is a query that was begun on a line, with the response that was accepted as its
answer if there is one. Round trips do not overlap, so the log determines the rounds: a
query that is sent begins one, and a response that is received answers the latest.

The `Account` of a network is all that the theory of sessions and cursors has to know of
it: the lines that were opened, the lines that were greeted, the lines that were closed,
and the rounds. Most of what the driver does on a network is plain: it leaves the account
as it is.
-/

namespace QueryDriver

open Wire

namespace Net

/-- A query that was begun on a line, with the response that was accepted as its answer. -/
structure Round where
  line : Nat
  query : Query
  answer : Option Response

namespace Round

/-- The number that the query carries. -/
def token (x : Round) : Int64 := x.query.tokenValue

/-- The query is of a type. -/
def IsOf (type : QueryType) (x : Round) : Prop := x.query.tag = some type.code

end Round

end Net

namespace LogEntry

/-- The entry tells nothing about what has become of a line or a query. -/
def IsAside : LogEntry → Prop
  | connected .. | sending .. | received .. => False
  | _ => True

end LogEntry

/-- The rounds of a log, newest first. A response answers the round that was begun last. -/
def roundsOf : List LogEntry → List Net.Round
  | [] => []
  | .sending line _ query :: log => ⟨line, query, none⟩ :: roundsOf log
  | .received _ _ response :: log =>
    (roundsOf log).modifyHead fun x => { x with answer := some response }
  | _ :: log => roundsOf log

/-- The lines that were greeted, newest first. -/
def greetedOf : List LogEntry → List Nat
  | [] => []
  | .connected line _ :: log => line :: greetedOf log
  | _ :: log => greetedOf log

theorem roundsOf_aside {e : LogEntry} (h : e.IsAside) (log : List LogEntry) :
    roundsOf (e :: log) = roundsOf log := by
  cases e <;> first | rfl | exact h.elim

theorem greetedOf_aside {e : LogEntry} (h : e.IsAside) (log : List LogEntry) :
    greetedOf (e :: log) = greetedOf log := by
  cases e <;> first | rfl | exact h.elim

namespace Net

/-- What has become of the lines and queries of a network. -/
@[ext]
structure Account where
  /-- The lines that were opened. -/
  opened : List Nat
  /-- The lines whose peer was greeted. -/
  greeted : List Nat
  /-- The lines that were closed. -/
  closed : List Nat
  /-- The rounds, newest first. -/
  rounds : List Round

namespace Account

/-- A line was opened. -/
def openLine (n : Nat) (a : Account) : Account := { a with opened := n :: a.opened }

/-- The peer of a line was greeted. -/
def greet (n : Nat) (a : Account) : Account := { a with greeted := n :: a.greeted }

/-- A line was closed. -/
def shut (n : Nat) (a : Account) : Account :=
  if n ∈ a.closed then a else { a with closed := n :: a.closed }

/-- Lines were closed, one after the other. -/
def shutAll (ns : List Nat) (a : Account) : Account := ns.foldl (fun a n => a.shut n) a

/-- A query was begun. -/
def begin (x : Round) (a : Account) : Account := { a with rounds := x :: a.rounds }

@[simp] theorem mem_closed_shut {m n : Nat} {a : Account} :
    m ∈ (a.shut n).closed ↔ m = n ∨ m ∈ a.closed := by
  unfold shut
  split
  · rename_i h
    exact ⟨.inr, fun hm => hm.elim (fun hmn => hmn ▸ h) id⟩
  · simp

@[simp] theorem shut_shut (n : Nat) (a : Account) : (a.shut n).shut n = a.shut n :=
  if_pos (mem_closed_shut.2 (.inl rfl))

@[simp] theorem opened_shut (n : Nat) (a : Account) : (a.shut n).opened = a.opened := by
  unfold shut; split <;> rfl

@[simp] theorem greeted_shut (n : Nat) (a : Account) : (a.shut n).greeted = a.greeted := by
  unfold shut; split <;> rfl

@[simp] theorem shutAll_cons (n : Nat) (ns : List Nat) (a : Account) :
    a.shutAll (n :: ns) = (a.shut n).shutAll ns := rfl

@[simp] theorem rounds_shut (n : Nat) (a : Account) : (a.shut n).rounds = a.rounds := by
  unfold shut; split <;> rfl

@[simp] theorem rounds_shutAll (ns : List Nat) (a : Account) :
    (a.shutAll ns).rounds = a.rounds := by
  induction ns generalizing a with
  | nil => rfl
  | cons n ns ih => rw [shutAll_cons, ih, rounds_shut]

end Account

variable {σ τ α β : Type} {t : Transport σ τ} (L : Ledger t)

/-- The account of a network, by a ledger of its transport. -/
def World.account (w : World σ) : Account :=
  ⟨L.opened w.net, greetedOf w.journal.log, w.closed, roundsOf w.journal.log⟩

variable {L} in
/-- A response that is received answers the round that was just begun. -/
theorem World.account_received {w : World σ} {a : Account} {n : Nat} {peer : Endpoint}
    {query : Query}
    {r : Response} (hw : w.account L = a.begin ⟨n, query, none⟩) :
    { w with journal := w.journal.record (.received n peer r) }.account L =
      a.begin ⟨n, query, some r⟩ := by
  have hrounds : roundsOf w.journal.log = ⟨n, query, none⟩ :: a.rounds :=
    congrArg Account.rounds hw
  have hrecord : { w with journal := w.journal.record (.received n peer r) }.account L =
      { w.account L with rounds := (roundsOf w.journal.log).modifyHead fun x =>
        { x with answer := some r } } := rfl
  rw [hrecord, hw, hrounds]
  rfl

/-- The action leaves the account as it is, and its only faults are refusals. -/
structure Plain (a : Action σ α) : Prop where
  account : ∀ {w o w'}, a.run w = (o, w') → w'.account L = w.account L
  refusal : ∀ {w f w'}, a.run w = (.error (.fault f), w') → f.IsRefusal

namespace Plain

variable {L}

theorem record {e : LogEntry} (h : e.IsAside) : Plain L (Action.record e : Action σ Unit) where
  account hrun := by
    cases hrun
    simp only [World.account, Journal.record, roundsOf_aside h, greetedOf_aside h]
  refusal hrun := by cases hrun

end Plain

end Net

end QueryDriver
