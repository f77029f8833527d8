namespace Toolchain.Number

def groupThrees : List Char → List Char
  | a :: b :: c :: d :: ds => a :: b :: c :: ',' :: groupThrees (d :: ds)
  | ds => ds

def grouped (n : Nat) : String :=
  String.ofList (groupThrees (Nat.toDigits 10 n).reverse).reverse

end Toolchain.Number
