import Resumption.Script.Basic

/-!
# Array methods as scripts

The array methods that take a callback, as functions of the scripting language.  Being
instrumented like any other function they leave a frame when the callback is paused, so that the
remaining elements get their turn after it is resumed.  The text of each is given above it.
-/

namespace Resumption.ArrayMethods

open Script

def callback : Expr := .ident "callback"

def thisArg : Expr := .ident "thisArg"

def arr : Expr := .ident "arr"

def out : Expr := .ident "out"

def acc : Expr := .ident "acc"

def value : Expr := .ident "value"

def i : Expr := .ident "i"

/-- `throw new TypeError(message);` -/
def throwTypeError (message : Expr) : Stmt :=
  .throwing (.construct (.ident "TypeError") [message])

/-- `if (typeof callback != "function") throw new TypeError(callback + " is not a function");` -/
def requireCallback : Stmt :=
  .branch (.binary .notEq (.unary .typeOf callback) (.str "function"))
    (throwTypeError (.binary .add callback (.str " is not a function"))) none

/-- `callback.call(thisArg, element, i, arr)` -/
def callOn (element : Expr) : Expr := .call (.member callback "call") [thisArg, element, i, arr]

/-- `arr[i]` -/
def element : Expr := .index arr i

/-- `for (init; i < arr.length; i++) body` -/
def loop (init : ForInit) (body : Stmt) : Stmt :=
  .forLoop init (some (.binary .lt i (.member arr "length"))) (some (.update .increment false i))
    body

/-- `for (var i = 0; i < arr.length; i++) { … }` -/
def loopFromStart (body : List Stmt) : Stmt := loop (.vars [⟨"i", some (.num 0)⟩]) (.block body)

/-- Visits the elements that are there.

    function forEach(callback, thisArg) {
        if (typeof callback != "function") throw new TypeError(callback + " is not a function");
        var arr = this;
        for (var i = 0; i < arr.length; i++) {
            if (i in arr) callback.call(thisArg, arr[i], i, arr);
        }
    }
-/
def forEach : Func :=
  ⟨some "forEach", ["callback", "thisArg"],
    [requireCallback,
     .var [⟨"arr", some .this⟩],
     loopFromStart [.branch (.binary .isIn i arr) (.expr (callOn element)) none]]⟩

/-- Collects what the callback returns.

    function map(callback, thisArg) {
        if (typeof callback != "function") throw new TypeError(callback + " is not a function");
        var arr = this, out = [];
        for (var i = 0; i < arr.length; i++) {
            out[i] = callback.call(thisArg, arr[i], i, arr);
        }
        return out;
    }
-/
def map : Func :=
  ⟨some "map", ["callback", "thisArg"],
    [requireCallback,
     .var [⟨"arr", some .this⟩, ⟨"out", some (.array [])⟩],
     loopFromStart [.expr (.assign none (.index out i) (callOn element))],
     .ret (some out)]⟩

/-- Keeps the elements that the callback accepts.

    function filter(callback, thisArg) {
        if (typeof callback != "function") throw new TypeError(callback + " is not a function");
        var arr = this, out = [];
        for (var i = 0; i < arr.length; i++) {
            var value = arr[i];
            if (callback.call(thisArg, value, i, arr)) out.push(value);
        }
        return out;
    }
-/
def filter : Func :=
  ⟨some "filter", ["callback", "thisArg"],
    [requireCallback,
     .var [⟨"arr", some .this⟩, ⟨"out", some (.array [])⟩],
     loopFromStart
       [.var [⟨"value", some element⟩],
        .branch (callOn value) (.expr (.call (.member out "push") [value])) none],
     .ret (some out)]⟩

/-- Combines the elements from the first to the last.

    function reduce(callback, initial) {
        if (typeof callback != "function") throw new TypeError(callback + " is not a function");
        var arr = this, i = 0, acc;
        if (arguments.length > 1) {
            acc = initial;
        } else {
            if (arr.length == 0) throw new TypeError("Reduce of empty array with no initial value");
            acc = arr[0];
            i = 1;
        }
        for (; i < arr.length; i++) {
            acc = callback(acc, arr[i], i, arr);
        }
        return acc;
    }
-/
def reduce : Func :=
  ⟨some "reduce", ["callback", "initial"],
    [requireCallback,
     .var [⟨"arr", some .this⟩, ⟨"i", some (.num 0)⟩, ⟨"acc", none⟩],
     .branch (.binary .gt (.member (.ident "arguments") "length") (.num 1))
       (.block [.expr (.assign none acc (.ident "initial"))])
       (some (.block
         [.branch (.binary .eq (.member arr "length") (.num 0))
            (throwTypeError (.str "Reduce of empty array with no initial value")) none,
          .expr (.assign none acc (.index arr (.num 0))),
          .expr (.assign none i (.num 1))])),
     loop .absent (.block [.expr (.assign none acc (.call callback [acc, element, i, arr]))]),
     .ret (some acc)]⟩

/-- The methods, in the order in which they are compiled. -/
def all : List Func := [forEach, map, filter, reduce]

end Resumption.ArrayMethods
