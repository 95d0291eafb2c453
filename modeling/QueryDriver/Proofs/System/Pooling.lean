import QueryDriver.Proofs.Session.Accounting
import QueryDriver.Proofs.System.Delivery
import QueryDriver.Proofs.System.Placement

/-!
# The pool and the counter across a run

What a run does to the pool and to the counter of tokens is settled by how the value compiles, by
whether the pool is empty, and by the answer. The connections below the top of the pool are other
ones than the one on top, in every history, so a run has nothing to do with them.
-/

namespace QueryDriver

open Net Wire

variable {σ τ : Type} {t : Transport σ τ} {L : Ledger t} [Clock τ]

namespace System

/-- A client that a history of managed operations has led to. -/
def Reaches (t : Transport σ τ) (L : Ledger t) (k : Client σ) : Prop :=
  ∃ (s : System σ) (ops : List Operation), s.Begins L ∧ (∀ op ∈ ops, op.Managed) ∧
    (s.play t ops).2.client = k

/-- The connections of a pool are open, and no two of them are on one line. -/
theorem Reaches.pool {k : Client σ} (h : Reaches t L k) :
    k.session.lines.Nodup ∧ ∀ n ∈ k.session.lines, n ∉ (k.account L).closed := by
  obtain ⟨s, ops, hs, hops, rfl⟩ := h
  have hplay : (s.play t ops).2.Sound L _ := hs.sound.play hops
  obtain ⟨hpool, -, -⟩ := List.nodup_append'.1 hplay.nodup
  exact ⟨hpool, fun n hn => (hplay.ready (List.mem_append_left _ hn)).open_⟩

end System

/-- A run of a built value on an open session does to the session what `Accounted` lists. When
the pool is not empty, the connection on top is the only one that is used, and the ones below it
are other ones, which stay open. -/
theorem Client.pool_of_run {v : Value} (hv : v.Built) {k k' : Client σ}
    {o : Except Failure Cursor} (hopen : k.session.closed = false)
    (h : (run t v).run k = (o, k')) :
    Accounted t L v k o k' ∧ ∀ c rest, k.session.idle = c :: rest → Uses t L c k k' ∧
      (System.Reaches t L k → ∀ d ∈ rest, d.line ≠ c.line ∧ d.line ∉ (k'.account L).closed) := by
  have haccounted := run_accounted (L := L) hv hopen h
  refine ⟨haccounted, fun c rest hidle => ⟨haccounted.uses hidle, fun hreached d hd => ?_⟩⟩
  obtain ⟨hnodup, hready⟩ := hreached.pool
  have hlines : k.session.lines = c.line :: rest.map Connection.line := by
    rw [Session.lines, hidle, List.map_cons]
  rw [hlines] at hnodup hready
  have hmem : d.line ∈ rest.map Connection.line := List.mem_map_of_mem hd
  have hne : d.line ≠ c.line := by
    rintro heq
    exact (List.nodup_cons.1 hnodup).1 (heq ▸ hmem)
  refine ⟨hne, ?_⟩
  rw [(haccounted.uses hidle).closed d.line hne]
  exact hready d.line (List.mem_cons_of_mem _ hmem)

/-- What leaves two connections in the pool: one cursor holds its connection while another
query is run over a second one, and gives it back after that. -/
def fillPool : List Operation := [.run .null, .run .null, .cursor 0 .close]

/-- A system with two connections in its pool, over a script that answers with a part of the
rows and then with all of them. -/
def System.pooled : System Script :=
  ((System.scripted [.plain, .plain] [[.response partOfMore 0], [.response lastOfRows 0],
    [.response lastOfRows 0]]).play Script.transport fillPool).2

/-- A run that takes the connection on top of a pool of two. -/
theorem Client.pool_of_run_pooled :
    Value.null.Built ∧ System.pooled.client.session.closed = false ∧
      System.pooled.client.session.idle =
        [⟨1, ⟨"localhost", 28015⟩⟩, ⟨2, ⟨"localhost", 28015⟩⟩] ∧
        Uses Script.transport Script.ledger ⟨1, ⟨"localhost", 28015⟩⟩ System.pooled.client
          ((run Script.transport .null).run System.pooled.client).2 ∧
        2 ∉ (((run Script.transport .null).run System.pooled.client).2.account
          Script.ledger).closed :=
  have hbuilt : Value.null.Built := .leaf rfl
  have hopen : System.pooled.client.session.closed = false := by decide +kernel
  have hidle : System.pooled.client.session.idle =
      [⟨1, ⟨"localhost", 28015⟩⟩, ⟨2, ⟨"localhost", 28015⟩⟩] := by decide +kernel
  have hops : ∀ op ∈ fillPool, op.Managed := by simp [fillPool, Operation.Managed]
  have hreached : System.Reaches Script.transport Script.ledger System.pooled.client :=
    ⟨_, fillPool, System.begins_scripted _ _, hops, rfl⟩
  have hpool := (pool_of_run hbuilt hopen rfl).2 _ _ hidle
  ⟨hbuilt, hopen, hidle, hpool.1, (hpool.2 hreached _ List.mem_cons_self).2⟩

end QueryDriver
