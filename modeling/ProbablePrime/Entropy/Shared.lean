/-
  ProbablePrime.Entropy.Shared — handles that share a source.

  A source is reached through handles.  A clone of a handle is another handle on the same source,
  never on a copy of it: what one handle takes is gone for all of them.  A pool keeps every source
  in a cell of its own and knows which cell each handle is on.

  Handles may be in the hands of several threads, but a source serves one request at a time, so
  what happens to a pool is a sequence of steps.
-/
import ProbablePrime.Entropy.Source

namespace ProbablePrime.Entropy

/-! ## §1. Pools. -/

/-- The same function with another value at one name. -/
def rebind {β : Type} (name : String) (value : β) (f : String → β) : String → β :=
  fun other => if other = name then value else f other

/-- Sources, each in its cell, and the handles on them. -/
structure Pool (σ : Type) where
  /-- The number of cells. -/
  size : Nat
  /-- What the cells hold. -/
  sources : Vector σ size
  /-- The cell that a handle is on, if there is a handle of that name. -/
  handle : String → Option (Fin size)

namespace Pool

variable {σ : Type}

/-- No source and no handle. -/
def empty : Pool σ := ⟨0, .emptyWithCapacity 0, fun _ => none⟩

/-- What a cell holds. -/
def source (pool : Pool σ) (cell : Fin pool.size) : σ := pool.sources[cell]

/-- Sets a handle on a cell, or takes the name away from the handle that has it. -/
def point (name : String) (pool : Pool σ) (cell : Option (Fin pool.size)) : Pool σ :=
  { pool with handle := rebind name cell pool.handle }

/-- Puts a source into a new cell and sets a handle on it. -/
def make (name : String) (source : σ) (pool : Pool σ) : Pool σ where
  size := pool.size + 1
  sources := pool.sources.push source
  handle := rebind name (some (Fin.last pool.size)) fun other =>
    (pool.handle other).map Fin.castSucc

/-- Asks the source in a cell for `count` bytes; the source goes on in its cell. -/
def fill [Source σ] (count : Nat) (pool : Pool σ) (cell : Fin pool.size) :
    Except PrimeError (List UInt8) × Pool σ :=
  let (answer, source) := Source.fill count (pool.source cell)
  (answer, { pool with sources := pool.sources.set cell source })

end Pool

/-! ## §2. Steps. -/

/-- What a program does with handles. -/
inductive Use (σ : Type) where
  /-- Makes a handle on a source of its own. -/
  | make (name : String) (source : σ)
  /-- Makes `copy` a clone of the handle `name`. -/
  | clone (name copy : String)
  /-- Drops a handle. -/
  | drop (name : String)
  /-- Asks a handle for `count` bytes. -/
  | ask (name : String) (count : Nat)

namespace Pool

variable {σ : Type} [Source σ]

/-- One step and what it answers: a request through a handle is answered, everything else is
not. -/
def step (pool : Pool σ) : Use σ → Option (Except PrimeError (List UInt8)) × Pool σ
  | .make name source => (none, pool.make name source)
  | .clone name copy => (none, pool.point copy (pool.handle name))
  | .drop name => (none, pool.point name none)
  | .ask name count =>
    match pool.handle name with
    | none => (none, pool)
    | some cell =>
      let (answer, pool) := pool.fill count cell
      (some answer, pool)

end Pool

/-! ## §3. A handle as a source. -/

/-- A handle, with the pool that it is a handle of. -/
structure Held (σ : Type) where
  /-- All sources and handles there are. -/
  pool : Pool σ
  /-- The name of the handle. -/
  name : String
  /-- There is a handle of that name. -/
  known : (pool.handle name).isSome

namespace Held

variable {σ : Type}

/-- The cell that the handle is on. -/
def cell (held : Held σ) : Fin held.pool.size := (held.pool.handle held.name).get held.known

/-- The only handle on a source that nothing else is shared with. -/
def only (name : String) (source : σ) : Held σ where
  pool := Pool.empty.make name source
  name := name
  known := by simp [Pool.make, rebind]

/-- A clone of the handle, under the name `copy`. -/
def clone (copy : String) (held : Held σ) : Held σ where
  pool := held.pool.point copy (held.pool.handle held.name)
  name := copy
  known := by simpa [Pool.point, rebind] using held.known

/-- Asks the source that the handle is on. -/
def fill [Source σ] (count : Nat) (held : Held σ) :
    Except PrimeError (List UInt8) × Held σ :=
  let served := held.pool.fill count held.cell
  (served.1, ⟨served.2, held.name, held.known⟩)

theorem length_of_fill [Source σ] {count : Nat} {held : Held σ} {bytes : List UInt8}
    (h : (held.fill count).1 = .ok bytes) : bytes.length = count :=
  Source.length_of_fill (s := held.pool.source held.cell) h

end Held

instance {σ : Type} [Source σ] : Source (Held σ) where
  fill := Held.fill
  length_of_fill := Held.length_of_fill

end ProbablePrime.Entropy
