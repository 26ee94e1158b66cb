/-! Whole numbers that fit a signed word of 64 bits. -/
namespace Renewals

def fitsWord (n : Int) : Bool := -0x8000000000000000 ≤ n && n < 0x8000000000000000

end Renewals
