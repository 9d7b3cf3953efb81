namespace Submarine.Time

/-- The longest length of time: the seconds fill 64 bits. -/
def maxDelay : Nat := 18446744073709551615999999999

def nanosPerMilli : Nat := 1000000

def nanosPerSecond : Nat := 1000000000

end Submarine.Time
