/-!
The gauge of memory use. It is read when collection starts, which it does once; what was read stays
when collection stops, until all metrics are reset.
-/
set_option autoImplicit false

namespace VisaEligibility

structure MemoryGauge where
  collecting : Bool := false
  readings : List String := []
deriving DecidableEq, Repr

namespace MemoryGauge

def kinds : List String := ["heap_total", "heap_used", "rss"]

def start (g : MemoryGauge) : MemoryGauge :=
  if g.collecting then g else ⟨true, kinds⟩

def stop (g : MemoryGauge) : MemoryGauge := { g with collecting := false }

def reset (g : MemoryGauge) : MemoryGauge := { g with readings := [] }

end MemoryGauge
end VisaEligibility
