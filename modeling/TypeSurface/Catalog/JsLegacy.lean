/-!
# The deprecated set for JavaScript
-/

namespace TypeSurface
namespace Catalog

/-- A deprecated set for the mode `js`, whose lengths and positions are plain numbers. -/
def jsLegacyText : String :=
  "/// <set id=\"js.legacy\" version=\"1.0.0\" mode=\"js\" deprecated=\"true\" />\n" ++
  "/// <reference set=\"base\" />

/////////////////////////////
/// Legacy JavaScript array fragment
/////////////////////////////

// Superseded by the `js` set. Lengths and positions here are plain
// `number`, which the index audit rejects; kept so surfaces built against
// it fail loudly instead of drifting.

interface Array<T> \x7b
    length: number;
    pop(): T | undefined;
    push(...items: T[]): number;
    concat(...items: T[][]): T[];
    join(separator?: string): string;
    reverse(): T[];
    shift(): T | undefined;
    slice(start?: number, end?: number): T[];
    sort(compareFn?: (a: T, b: T) => number): this;
    splice(start: number, deleteCount?: number): T[];
    unshift(...items: T[]): number;
    indexOf(searchElement: T, fromIndex?: number): number;
    lastIndexOf(searchElement: T, fromIndex?: number): number;
    every(predicate: (value: T, index: number, array: T[]) => unknown): boolean;
    some(predicate: (value: T, index: number, array: T[]) => unknown): boolean;
    forEach(callbackfn: (value: T, index: number, array: T[]) => void): void;
    map<U>(callbackfn: (value: T, index: number, array: T[]) => U): U[];
    filter(predicate: (value: T, index: number, array: T[]) => unknown): T[];
    reduce<U>(callbackfn: (previousValue: U, currentValue: T, currentIndex: number, array: T[]) => U, initialValue: U): U;
    find(predicate: (value: T, index: number, obj: T[]) => unknown): T | undefined;
    findIndex(predicate: (value: T, index: number, obj: T[]) => unknown): number;
    includes(searchElement: T, fromIndex?: number): boolean;
    at(index: number): T | undefined;
    flat(depth?: number): any[];
    flatMap<U>(callback: (value: T, index: number, array: T[]) => U | U[]): U[];
\x7d

interface ArrayConstructor \x7b
    new <T>(arrayLength?: number): T[];
    isArray(arg: any): arg is any[];
\x7d

declare var Array: ArrayConstructor;
"

end Catalog
end TypeSurface
