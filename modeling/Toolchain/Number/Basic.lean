namespace Toolchain

def twoTo (n : Nat) : Nat := Nat.pow 2 n

def tenTo (n : Nat) : Nat := Nat.pow 10 n

def total (ns : List Nat) : Nat := ns.foldr Nat.add 0

def wordBound : Nat := twoTo 63

end Toolchain
