set_option autoImplicit false

namespace SceneGallery

/-- A converted event. -/
structure Descriptor where
  derived : UInt32
  /-- The number of the defeat event that it is linked to. -/
  linkage : UInt32
  path : String
deriving DecidableEq, Repr

/-- The name of the file that holds the event with the given number. -/
def eventFilename (id : UInt32) : String :=
  "CommonEvent" ++ toString id.toNat ++ ".txt"

/-- Hands out numbers, one after the other. After the largest number comes zero. -/
structure Counter where
  /-- The number that is handed out next. -/
  next : UInt32
deriving DecidableEq, Repr

/-- The first number of a converted event. -/
def firstDerivedId : UInt32 := 9200

/-- The counter of a run. -/
def Counter.initial : Counter := ⟨firstDerivedId⟩

/-- The counter after its next number was handed out. -/
def Counter.advance (counter : Counter) : Counter :=
  ⟨counter.next + 1⟩

end SceneGallery
