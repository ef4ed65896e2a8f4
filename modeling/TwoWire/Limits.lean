/-! Fixed sizes of the frame format: four header bytes and at most sixty-four
payload bytes. -/

namespace TwoWire

abbrev headerSize : Nat := 4

abbrev payloadLimit : Nat := 64

abbrev frameLimit : Nat := headerSize + payloadLimit

end TwoWire
