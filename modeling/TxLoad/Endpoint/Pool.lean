import TxLoad.Endpoint.Basic

namespace TxLoad

/-!
# Pools of endpoints

A pool holds at least one endpoint. Connections are spread over it round robin.
-/

structure Pool where
  endpoints : List Endpoint
  nonempty : endpoints ≠ []

namespace Pool

/-- A pool of the given endpoints, which must be some. -/
def ofList (endpoints : List Endpoint) : Except ConnectivityError Pool :=
  if h : endpoints = [] then .error (.insufficientEndpoints 0 1) else .ok ⟨endpoints, h⟩

def size (p : Pool) : Nat := p.endpoints.length

theorem size_pos (p : Pool) : 0 < p.size := List.length_pos_iff.mpr p.nonempty

/-- The endpoint of the connection with the given index. -/
def select (p : Pool) (i : Nat) : Endpoint :=
  p.endpoints.get ⟨i % p.size, Nat.mod_lt i p.size_pos⟩

/-- Connections a whole number of rounds apart share their endpoint. -/
theorem select_add_size (p : Pool) (i : Nat) : p.select (i + p.size) = p.select i := by
  unfold select
  congr 2
  exact Nat.add_mod_right i p.size

end Pool

end TxLoad
