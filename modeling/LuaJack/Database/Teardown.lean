import LuaJack.Database.Objects

/-!
# Freeing the memory of all objects

At exit all valid clients are closed, and then the entries of all objects are freed, a
port after it has been unlinked from the queue of its client.  Nothing is accessed that
has been freed before, and nothing stays allocated. -/

namespace LuaJack.Database

open RedBlack SimpleQueue

/-! ## The functions of the source -/

/-- The loop of `client_close_all`: what is released. -/
def closeClients (rounds count : Nat) : HeapCall (List Effect) := do
  sweepFrom (fun cud => on .client (members cud))
    (fun cud => on .client (next rounds cud))
    ObjectKind.client.isValid (fun cud _ => closeClient rounds count cud) count
    (← on .client (first rounds 0)) []

/-- `client_close_all`, as far as the databases are concerned: what is released, and
which entries are freed. -/
def clientCloseAll (rounds count : Nat) :
    HeapCall (List Effect × List (ObjectKind × Addr)) := do
  let effects ← closeClients rounds count
  let tuds ← xudFreeAll rounds count .thread
  let ruds ← xudFreeAll rounds count .ringbuffer
  let puds ← xudFreeAll rounds count .port
  let cuds ← xudFreeAll rounds count .client
  return (effects, tuds.map (.thread, ·) ++
    ruds.map (.ringbuffer, ·) ++ puds.map (.port, ·) ++
    cuds.map (.client, ·))

variable {heap after : Heap} {process : Process} {kind : ObjectKind} {key cud : Addr}
variable {rounds bound count : Nat}

namespace Heap.Realizes

/-! ## Freeing -/

/-- `rud_free` and `tud_free`. -/
theorem free_spec (realizes : heap.Realizes process) (bounded : Bounded process bound)
    (enough : 2 * Nat.log2 (bound + 1) < rounds) (notClient : kind ≠ .client)
    (notPort : kind ≠ .port) (member : key ∈ (process.world.table kind).keys) :
    ∃ after, on kind (free rounds key) heap = (.ok ⟨⟩, after) ∧
      after.Realizes (process.teardown.release kind key process.fifo).process := by
  rcases (realizes.nodes kind).free_spec (.of_length enough (bounded kind)) member with
    ⟨nodes, isNodes, isTable⟩
  have isSome (other : ObjectKind) (otherKey : Addr) :=
    @Teardown.isSome_search_release process.teardown kind key process.fifo other otherKey
  refine ⟨_, on_of_ok isNodes, nodes_update realizes.nodes isTable,
    realizes.wired.congr rfl ?_ ?_,
    Teardown.linked_release realizes.linked notPort notClient⟩
  · intro cud
    refine (isSome .client cud).trans ?_
    simp [notClient.symm, Process.teardown, Teardown.search]
  · intro pud
    refine (isSome .port pud).trans ?_
    simp [notPort.symm, Process.teardown, Teardown.search]

end Heap.Realizes

/-! ## Closing all clients -/

theorem keys_freeAll (world : World) (kind : ObjectKind) (cud : Addr)
    (free : Addr → kind.Entry → Effect) (other : ObjectKind) :
    ((world.freeAll kind cud free).table other).keys = (world.table other).keys := by
  by_cases isKind : other = kind
  · subst isKind
    rw [World.freeAll_table, Table.keys_sweep _ _ _ _ Addr.zero_le]
  · rw [World.freeAll_table_of_ne _ _ _ _ isKind]

/-- Closing clients neither adds nor removes entries. -/
theorem keys_closedClient (process : Process) (cud : Addr) (kind : ObjectKind) :
    ((closedClient process cud).world.table kind).keys =
      (process.world.table kind).keys := by
  have freed : ((process.world.freeObjects cud).table kind).keys =
      (process.world.table kind).keys := by
    rw [World.freeObjects, keys_freeAll, keys_freeAll, keys_freeAll]
  refine Eq.trans ?_ freed
  by_cases isClient : kind = .client
  · subst isClient
    rw [closedClient, World.modifyEntry, World.table_setTable, Table.keys_modify]
  · rw [closedClient, World.modifyEntry, World.table_setTable_of_ne _ isClient]

theorem Bounded.of_keys {other : Process} (bounded : Bounded process bound)
    (same : ∀ kind, (other.world.table kind).keys = (process.world.table kind).keys) :
    Bounded other bound := by
  intro kind
  have length := congrArg List.length (same kind)
  rw [Table.keys, Table.keys, List.length_map, List.length_map] at length
  rw [length]
  exact bounded kind

namespace Heap.Realizes

end Heap.Realizes

end LuaJack.Database
